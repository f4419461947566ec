import LaminarDB.State.Feeding

/-!
# Rows by window and group

A batch is cut into the rows of each window and group, and each part goes to the accumulators of its
group. As long as a window has room for them, its groups hold the rows that they were given.
-/

namespace LaminarDB.State

open Library Result List KeyedMap

section Grouping

variable {Item Key : Type} [DecidableEq Key] {key : Item → Key} {items : List Item}

theorem find?_grouped (other : Key) :
    (items.foldl (fun (grouped : KeyedMap Key (List Item)) item =>
      grouped.insert (key item)
        ((grouped.find? (key item)).getD [] ++ [item])) .empty).find? other =
      if items.filter (key · = other) = [] then none else some (items.filter (key · = other)) := by
  induction items using reverseRecOn with
  | nil => rfl
  | append_singleton items item ih =>
    rw [foldl_append, foldl_cons, foldl_nil, KeyedMap.find?_insert, filter_append]
    by_cases same : other = key item
    · subst same
      rw [if_pos rfl, ih]
      by_cases none : items.filter (key · = key item) = [] <;> simp [none]
    · rw [if_neg same, ih, filter_cons_of_neg (by simpa using Ne.symm same), filter_nil, append_nil]

theorem mem_groupRows_iff {group : Key × List Item} :
    group ∈ groupRows key items ↔
      group.2 = items.filter (key · = group.1) ∧ ∃ item ∈ items, key item = group.1 := by
  obtain ⟨other, rows⟩ := group
  rw [groupRows, KeyedMap.mem_iff_find?, find?_grouped]
  have occurs : items.filter (key · = other) ≠ [] ↔ ∃ item ∈ items, key item = other := by
    simp [filter_eq_nil_iff]
  by_cases none : items.filter (key · = other) = []
  · rw [if_pos none]
    constructor
    · exact nofun
    · exact fun found => absurd none (occurs.mpr found.2)
  · rw [if_neg none, Option.some.injEq, eq_comm]
    exact ⟨fun isRows => ⟨isRows, occurs.mp none⟩, And.left⟩

theorem nodup_groupRows : ((groupRows key items).map Prod.fst).Nodup :=
  KeyedMap.unique _

end Grouping

variable {Acc Input Row : Type} {groups : Groups Acc} {start : I64} {width : Nat}
  {engine : Engine Acc Input} {query : WindowQuery Acc Input Row}
  {grouped : List ((I64 × GroupKey) × List Row)} {left : Windows Acc} {assign : I64 → List I64}
  {rows fed : List Row} {key : GroupKey} {time : Row → I64}

namespace Windows

variable (windows : Windows Acc)

def groupsOf (start : I64) : Groups Acc :=
  (windows.find? start).getD .empty

theorem groupsOf_insert (other : I64) :
    groupsOf (windows.insert start groups) other =
      if other = start then groups else windows.groupsOf other := by
  unfold groupsOf
  rw [SortedMap.find?_insert]
  by_cases same : other = start
  · rw [if_pos same, if_pos same]
    rfl
  · rw [if_neg same, if_neg same]

section Update

variable {specs : List (AggFuncSpec Acc Input Row)} {room : Groups Acc → Bool} {left : Groups Acc}

theorem updateGroup_cases (updated : updateGroup engine specs room groups key rows = (left, none)) :
    (∃ accs result, (groups.find? key = some accs ∨ groups.find? key = none ∧
          room groups = true ∧ createAccumulators specs = .ok accs) ∧
        updateGroupAccumulators engine rows specs accs = (result, none) ∧
        left = groups.insert key result) ∨
      groups.find? key = none ∧ room groups = false ∧ left = groups := by
  unfold updateGroup at updated
  cases found : groups.find? key with simp only [found] at updated
  | some accs =>
    generalize isResult : updateGroupAccumulators engine rows specs accs = result at updated
    obtain ⟨result, error⟩ := result
    cases updated
    exact .inl ⟨accs, result, .inl rfl, isResult, rfl⟩
  | none =>
    cases fits : room groups with
    | false =>
      simp only [fits, Bool.false_eq_true, if_false] at updated
      cases updated
      exact .inr ⟨rfl, rfl, rfl⟩
    | true =>
      simp only [fits, if_true] at updated
      split at updated
      · cases updated
      · rename_i accs created
        generalize isResult : updateGroupAccumulators engine rows specs accs = result at updated
        obtain ⟨result, error⟩ := result
        cases updated
        exact .inl ⟨accs, result, .inr ⟨rfl, rfl, created⟩, isResult, rfl⟩

variable (engine specs) in
def Sound (width : Nat) (groups : Groups Acc) : Prop :=
  ∀ key accs, groups.find? key = some accs →
    key.length = width ∧ ∃ chunks, AllFed engine specs chunks accs

theorem Sound.updateGroup (sound : Sound engine specs width groups) (wide : key.length = width)
    (updated : updateGroup engine specs room groups key rows = (left, none)) :
    Sound engine specs width left := by
  intro other accs found
  rcases updateGroup_cases updated with ⟨before, result, was, isResult, rfl⟩ | ⟨-, -, rfl⟩
  · obtain ⟨chunks, fed⟩ : ∃ chunks, AllFed engine specs chunks before := by
      rcases was with wasFound | ⟨-, -, created⟩
      · exact (sound key before wasFound).2
      · exact ⟨_, allFed_create created⟩
    rw [find?_insert] at found
    split at found
    · rename_i same
      cases found
      exact ⟨same ▸ wide, _, allFed_update fed isResult⟩
    · exact sound other accs found
  · exact sound other accs found

variable (engine specs) in
def GroupsHold (fed : GroupKey → List Row) (groups : Groups Acc) : Prop :=
  ∀ key, (groups.find? key = none → fed key = []) ∧
    ∀ accs, groups.find? key = some accs → fed key ≠ [] ∧ Holds engine specs (fed key) accs

theorem GroupsHold.updateGroup {fed : GroupKey → List Row}
    (holds : GroupsHold engine specs fed groups) (someRows : rows ≠ [])
    (roomy : groups.find? key = none → room groups = true)
    (updated : updateGroup engine specs room groups key rows = (left, none)) :
    GroupsHold engine specs (fun other => if other = key then fed other ++ rows else fed other)
      left := by
  rcases updateGroup_cases updated with ⟨before, result, was, isResult, rfl⟩ | ⟨missing, full, -⟩
  · obtain ⟨chunks, isFed, fedChunks⟩ : Holds engine specs (fed key) before := by
      rcases was with wasFound | ⟨missing, -, created⟩
      · exact ((holds key).2 before wasFound).2
      · exact ⟨[], .of_eq ((holds key).1 missing).symm, allFed_create created⟩
    intro other
    rw [find?_insert]
    by_cases same : other = key
    · subst same
      simp only [if_true]
      refine ⟨fun missing => (nomatch missing), fun accs found => ?_⟩
      cases found
      refine ⟨append_ne_nil_of_right_ne_nil _ someRows, chunks ++ [rows], ?_,
        allFed_update fedChunks isResult⟩
      rw [flatten_append, flatten_singleton]
      exact isFed.append_right rows
    · simp only [if_neg same]
      exact holds other
  · rw [roomy missing] at full
    cases full

theorem GroupsHold.of_perm {fed others : GroupKey → List Row}
    (holds : GroupsHold engine specs fed groups) (perm : ∀ key, (fed key).Perm (others key)) :
    GroupsHold engine specs others groups := by
  intro key
  refine ⟨fun missing => ?_, fun accs found => ?_⟩
  · have empty := (holds key).1 missing
    exact perm_nil.mp (empty ▸ (perm key).symm)
  · obtain ⟨someRows, held⟩ := (holds key).2 accs found
    refine ⟨fun none => someRows ?_, held.of_perm (perm key)⟩
    exact perm_nil.mp (none ▸ perm key)

end Update

section Batch

def Room (query : WindowQuery Acc Input Row) (keys : List GroupKey) : Prop :=
  query.groupTypes.isEmpty = true ∨ keys.length ≤ query.maxGroupsPerWindow

variable {keys : List GroupKey} {group : (I64 × GroupKey) × List Row}

theorem Room.hasRoom (room : Room query keys) (missing : groups.find? key = none)
    (known : key ∈ keys)
    (others : ∀ other ∈ groups.keys, other ∈ keys) : hasRoom query groups = true := by
  unfold Windows.hasRoom
  rcases room with noGroups | bounded
  · rw [noGroups, Bool.true_or]
  · have fits := subperm_of_subset (nodup_cons.mpr ⟨notMem_of_find? missing, groups.unique⟩)
      (cons_subset.mpr ⟨known, others⟩)
    have shorter := fits.length_le
    simp only [length_cons, length_map] at shorter
    refine Bool.or_eq_true_iff.mpr (.inr (decide_eq_true ?_))
    exact shorter.trans bounded

variable (engine query) in
def routed (start : I64)
    (key : GroupKey) (grouped : List ((I64 × GroupKey) × List Row)) : List Row :=
  (grouped.filter fun group => group.1.1 = start &&
    rowToScalarKeyWithTypes engine group.1.2 query.groupTypes = key).flatMap Prod.snd

theorem routed_cons :
    routed engine query start key (group :: grouped) =
      (if group.1.1 = start ∧ rowToScalarKeyWithTypes engine group.1.2 query.groupTypes = key then
        group.2 else []) ++ routed engine query start key grouped := by
  unfold routed
  rw [filter_cons]
  by_cases goes : group.1.1 = start ∧
    rowToScalarKeyWithTypes engine group.1.2 query.groupTypes = key
  · simp [goes.1, goes.2]
  · rw [if_neg (by simpa using goes), if_neg goes, nil_append]

variable {windows : Windows Acc}

theorem updateWindows_cons
    (updated : updateWindows engine query windows (group :: grouped) = (left, none)) :
    ∃ groups, updateGroup engine query.aggSpecs (hasRoom query) (windows.groupsOf group.1.1)
        (rowToScalarKeyWithTypes engine group.1.2 query.groupTypes) group.2 = (groups, none) ∧
      updateWindows engine query (windows.insert group.1.1 groups) grouped = (left, none) := by
  obtain ⟨⟨start, rowKey⟩, rows⟩ := group
  simp only [updateWindows, updateWindow] at updated
  unfold groupsOf
  generalize updateGroup engine query.aggSpecs (hasRoom query)
    ((windows.find? start).getD .empty)
    (rowToScalarKeyWithTypes engine rowKey query.groupTypes) rows = result at updated ⊢
  obtain ⟨groups, error⟩ := result
  cases error with
  | some error => cases updated
  | none => exact ⟨groups, rfl, updated⟩

theorem GroupsHold.updateWindows (room : Room query keys) {fed : GroupKey → List Row}
    (holds : GroupsHold engine query.aggSpecs fed (windows.groupsOf start))
    (known : ∀ key, fed key ≠ [] → key ∈ keys) (someRows : ∀ group ∈ grouped, group.2 ≠ [])
    (routes : ∀ group ∈ grouped, group.1.1 = start →
      rowToScalarKeyWithTypes engine group.1.2 query.groupTypes ∈ keys)
    (updated : updateWindows engine query windows grouped = (left, none)) :
    GroupsHold engine query.aggSpecs (fun key => fed key ++ routed engine query start key grouped)
      (left.groupsOf start) := by
  induction grouped generalizing windows fed with
  | nil =>
    cases updated
    simpa [routed] using holds
  | cons group grouped ih =>
    obtain ⟨groups, isResult, updated⟩ := updateWindows_cons updated
    have later := fun (fed : GroupKey → List Row) holds known =>
      @ih _ fed holds known (forall_mem_cons.mp someRows).2 (forall_mem_cons.mp routes).2 updated
    by_cases same : group.1.1 = start
    · subst same
      have isKnown := routes _ mem_cons_self rfl
      have present : ∀ other ∈ (windows.groupsOf group.1.1).keys, other ∈ keys := by
        intro other mem
        obtain ⟨entry, inEntries, rfl⟩ := mem_map.mp mem
        exact known _ ((holds entry.1).2 _ (find?_of_mem inEntries)).1
      have added := holds.updateGroup (someRows _ mem_cons_self)
        (fun missing => room.hasRoom missing isKnown present) isResult
      refine (later _ (by rw [groupsOf_insert, if_pos rfl]; exact added) ?_).of_perm ?_
      · intro key someFed
        by_cases isKey : key = rowToScalarKeyWithTypes engine group.1.2 query.groupTypes
        · exact isKey ▸ isKnown
        · rw [if_neg isKey] at someFed
          exact known key someFed
      · intro key
        rw [routed_cons]
        by_cases isKey : key = rowToScalarKeyWithTypes engine group.1.2 query.groupTypes
        · rw [if_pos isKey, if_pos ⟨rfl, isKey.symm⟩, append_assoc]
        · rw [if_neg isKey, if_neg fun goes => isKey goes.2.symm, nil_append]
    · refine (later fed ?_ known).of_perm fun key => ?_
      · rw [groupsOf_insert, if_neg (Ne.symm same)]
        exact holds
      · rw [routed_cons, if_neg fun goes => same goes.1, nil_append]

theorem updateWindows_sound
    (sound : ∀ start, Sound engine query.aggSpecs width (windows.groupsOf start))
    (wide : ∀ group ∈ grouped,
      (rowToScalarKeyWithTypes engine group.1.2 query.groupTypes).length = width)
    (updated : updateWindows engine query windows grouped = (left, none)) :
    ∀ start, Sound engine query.aggSpecs width (left.groupsOf start) := by
  induction grouped generalizing windows with
  | nil =>
    cases updated
    exact sound
  | cons group grouped ih =>
    obtain ⟨groups, isResult, updated⟩ := updateWindows_cons updated
    refine ih (fun start => ?_) (forall_mem_cons.mp wide).2 updated
    rw [groupsOf_insert]
    split
    · exact (sound group.1.1).updateGroup (wide _ mem_cons_self) isResult
    · exact sound start

theorem mem_updateWindows (updated : updateWindows engine query windows grouped = (left, none))
    {entry : I64 × Groups Acc} (mem : entry ∈ left.entries) :
    (∃ before ∈ windows.entries, before.1 = entry.1) ∨ ∃ group ∈ grouped, group.1.1 = entry.1 := by
  induction grouped generalizing windows with
  | nil =>
    cases updated
    exact .inl ⟨entry, mem, rfl⟩
  | cons group grouped ih =>
    obtain ⟨groups, -, updated⟩ := updateWindows_cons updated
    rcases ih updated with ⟨before, inserted, same⟩ | ⟨other, inGrouped, same⟩
    · rcases SortedMap.mem_insert inserted with rfl | present
      · exact .inr ⟨group, mem_cons_self, same⟩
      · exact .inl ⟨before, present, same⟩
    · exact .inr ⟨other, mem_cons_of_mem _ inGrouped, same⟩

variable (engine query) in
def groupKey (row : Row) : GroupKey :=
  rowToScalarKeyWithTypes engine (query.key row) query.groupTypes

variable (engine query) in
def received (assign : I64 → List I64) (time : Row → I64) (start : I64) (key : GroupKey)
    (rows : List Row) : List Row :=
  rows.filter fun row => time row ≠ nullTimestamp && start ∈ assign (time row) &&
    groupKey engine query row = key

theorem mem_received {row : Row} :
    row ∈ received engine query assign time start key rows ↔
      row ∈ rows ∧ time row ≠ nullTimestamp ∧ start ∈ assign (time row) ∧
        groupKey engine query row = key := by
  simp [received, and_assoc]

theorem assigned_eq (unique : ∀ instant, (assign instant).Nodup) :
    ((rows.flatMap fun row => if time row = nullTimestamp then []
        else (assign (time row)).map fun start => (start, row)).filter
      fun item => item.1 = start && groupKey engine query item.2 = key).map Prod.snd =
        received engine query assign time start key rows := by
  induction rows with
  | nil => rfl
  | cons row rows ih =>
    rw [flatMap_cons, filter_append, map_append, ih, received, received, filter_cons]
    by_cases untimed : time row = nullTimestamp
    · simp [untimed]
    · rw [if_neg untimed, filter_map]
      by_cases isKey : groupKey engine query row = key
      · have once : (assign (time row)).filter (fun other => other = start) =
            if start ∈ assign (time row) then [start] else [] := by
          rw [filter_eq, (unique _).count]
          split <;> rfl
        by_cases mem : start ∈ assign (time row)
        · simp [Function.comp_def, isKey, once, mem, untimed]
        · simp [Function.comp_def, isKey, once, mem]
      · simp [Function.comp_def, isKey]

theorem routed_groupRows {assigned : List (I64 × Row)} :
    (routed engine query start key
      ((groupRows (fun item => (item.1, query.key item.2)) assigned).map fun group =>
        (group.1, group.2.map Prod.snd))).Perm
      ((assigned.filter fun item => item.1 = start && groupKey engine query item.2 = key).map
        Prod.snd) := by
  let goes (group : (I64 × GroupKey) × List (I64 × Row)) : Bool := group.1.1 = start &&
    rowToScalarKeyWithTypes engine group.1.2 query.groupTypes = key
  let holds (group : (I64 × GroupKey) × List (I64 × Row)) (item : I64 × Row) : Bool :=
    (item.1, query.key item.2) = group.1
  have isRouted : routed engine query start key
      ((groupRows (fun item => (item.1, query.key item.2)) assigned).map fun group =>
        (group.1, group.2.map Prod.snd)) =
      (((groupRows (fun item => (item.1, query.key item.2)) assigned).filter goes).flatMap
        fun group => assigned.filter (holds group)).map Prod.snd := by
    unfold routed
    rw [filter_map, flatMap_map, map_flatMap]
    refine flatMap_congr fun group mem => ?_
    rw [(mem_groupRows_iff.mp (mem_filter.mp mem).1).1]
  have disjoint : ((groupRows (fun item => (item.1, query.key item.2)) assigned).filter
      goes).Pairwise fun left right => ∀ item ∈ assigned,
        holds left item = true → holds right item = false := by
    refine ((pairwise_map.mp nodup_groupRows).sublist filter_sublist).imp
      fun {left right} differs item _ held => ?_
    exact decide_eq_false fun alsoHeld => differs ((of_decide_eq_true held).symm.trans alsoHeld)
  rw [isRouted]
  refine ((filter_any_perm disjoint).symm.map Prod.snd).trans (.of_eq ?_)
  congr 1
  refine filter_congr fun item mem => ?_
  rw [Bool.eq_iff_iff, any_eq_true]
  constructor
  · rintro ⟨group, inGroups, held⟩
    have isGroup := of_decide_eq_true held
    have routes := (mem_filter.mp inGroups).2
    simp only [goes, ← isGroup] at routes
    exact routes
  · intro routes
    refine ⟨((item.1, query.key item.2), assigned.filter fun other =>
      (other.1, query.key other.2) = (item.1, query.key item.2)), ?_, decide_eq_true rfl⟩
    exact mem_filter.mpr ⟨mem_groupRows_iff.mpr ⟨rfl, item, mem, rfl⟩, routes⟩

theorem routed_assignRows (unique : ∀ instant, (assign instant).Nodup) :
    (routed engine query start key (assignRows query assign time rows)).Perm
      (received engine query assign time start key rows) := by
  rw [← assigned_eq unique]
  exact routed_groupRows

theorem mem_assignRows (mem : group ∈ assignRows query assign time rows) :
    group.2 ≠ [] ∧ ∃ row ∈ rows, time row ≠ nullTimestamp ∧ group.1.1 ∈ assign (time row) ∧
      query.key row = group.1.2 := by
  obtain ⟨grouped, inGroups, rfl⟩ := mem_map.mp mem
  obtain ⟨isRows, item, isItem, isKey⟩ := mem_groupRows_iff.mp inGroups
  obtain ⟨row, inRows, assigned⟩ := mem_flatMap.mp isItem
  split at assigned
  · cases assigned
  · rename_i timed
    obtain ⟨start, inWindows, rfl⟩ := mem_map.mp assigned
    refine ⟨?_, row, inRows, timed, ?_, ?_⟩
    · rw [isRows]
      refine ne_nil_of_mem (a := row) (mem_map.mpr ⟨(start, row), ?_, rfl⟩)
      exact mem_filter.mpr ⟨isItem, decide_eq_true isKey⟩
    · exact (congrArg Prod.fst isKey) ▸ inWindows
    · exact congrArg Prod.snd isKey

end Batch

end Windows

end LaminarDB.State
