import LaminarDB.Sql.LookupMeaning

/-!
# What the executors of lookup joins find

An executor compares columns of the stream with columns of the table: the ones of the join
for a snapshot, the registered key columns for the other kinds. `probedColumns` computes
these pairs, and every executor finds the rows of the table that agree on them and satisfy
the predicates that were pushed down.
-/

namespace LaminarDB.Sql.Lookup

open Library Result List RegisteredLookup LookupKind

def pairsMatch (pairs : List (String × String)) (row found : Row) : Bool :=
  pairs.all fun pair => equalCells (row pair.1) (found pair.2)

theorem equalCells_iff {first second : Option Int} :
    equalCells first second = true ↔ ∃ value, first = some value ∧ second = some value := by
  cases first with
  | none => simp [equalCells]
  | some one =>
    cases second with
    | none => simp [equalCells]
    | some two =>
      simp only [equalCells, beq_iff_eq, Option.some.injEq]
      constructor
      · rintro rfl
        exact ⟨one, rfl, rfl⟩
      · rintro ⟨_, rfl, rfl⟩
        rfl

theorem pairsMatch_zip {streamColumns columns : List String}
    (sameLength : streamColumns.length = columns.length) {row found : Row} :
    pairsMatch (streamColumns.zip columns) row found =
      (!hasNull (keyOf streamColumns row) && keyOf columns found == keyOf streamColumns row) := by
  induction streamColumns generalizing columns with
  | nil =>
    obtain rfl := eq_nil_of_length_eq_zero sameLength.symm
    rfl
  | cons streamColumn streamColumns ih =>
    cases columns with
    | nil => cases sameLength
    | cons column columns =>
      have rest := ih (Nat.succ.inj sameLength)
      simp only [pairsMatch, hasNull, keyOf] at rest
      simp only [pairsMatch, zip_cons_cons, all_cons, rest, hasNull, keyOf, map_cons, any_cons]
      cases row streamColumn with
      | none => simp [equalCells]
      | some one =>
        cases found column with
        | none => simp [equalCells]
        | some two =>
          by_cases same : one = two
          · simp [equalCells, same]
          · have differ : (one == two) = false := beq_eq_false_iff_ne.mpr same
            have differOther : (two == one) = false := beq_eq_false_iff_ne.mpr (Ne.symm same)
            simp [equalCells, differ, differOther]

def cells (row found : Row) : RowPair
  | ⟨.left, name⟩ => row name
  | ⟨.right, name⟩ => found name

/-- A chain of the pairs leads from one column to the other. -/
def Linked (pairs : List (String × String)) : Column → Column → Prop :=
  Relation.EqvGen fun first second =>
    ∃ pair ∈ pairs, first = ⟨.left, pair.1⟩ ∧ second = ⟨.right, pair.2⟩

/-- The columns of each pair are linked by the pairs of the other list. -/
def SamePairs (pairs others : List (String × String)) : Prop :=
  (∀ pair ∈ pairs, Linked others ⟨.left, pair.1⟩ ⟨.right, pair.2⟩) ∧
    ∀ pair ∈ others, Linked pairs ⟨.left, pair.1⟩ ⟨.right, pair.2⟩

variable {pairs others : List (String × String)} {row found : Row}

theorem pairsMatch_iff : pairsMatch pairs row found = true ↔
    ∀ pair ∈ pairs, SameValue (cells row found) ⟨.left, pair.1⟩ ⟨.right, pair.2⟩ := by
  simp only [pairsMatch, all_eq_true, equalCells_iff]
  rfl

theorem Linked.sameValue {first second : Column} (isMatch : pairsMatch pairs row found = true)
    (linked : Linked pairs first second) :
    first = second ∨ SameValue (cells row found) first second := by
  induction linked with
  | rel first second isPair =>
    obtain ⟨pair, mem, rfl, rfl⟩ := isPair
    exact .inr (pairsMatch_iff.mp isMatch pair mem)
  | refl column => exact .inl rfl
  | symm first second _ same =>
    exact same.imp Eq.symm fun ⟨value, isFirst, isSecond⟩ => ⟨value, isSecond, isFirst⟩
  | trans first second third _ _ before after =>
    rcases before with rfl | ⟨value, isFirst, isSecond⟩
    · exact after
    · rcases after with rfl | ⟨other, isOther, isThird⟩
      · exact .inr ⟨value, isFirst, isSecond⟩
      · cases isSecond.symm.trans isOther
        exact .inr ⟨value, isFirst, isThird⟩

theorem pairsMatch_of_linked
    (linked : ∀ pair ∈ pairs, Linked others ⟨.left, pair.1⟩ ⟨.right, pair.2⟩)
    (isMatch : pairsMatch others row found = true) : pairsMatch pairs row found = true :=
  pairsMatch_iff.mpr fun pair mem => ((linked pair mem).sameValue isMatch).resolve_left nofun

theorem SamePairs.pairsMatch_eq (same : SamePairs pairs others) (row found : Row) :
    pairsMatch pairs row found = pairsMatch others row found :=
  Bool.eq_iff_iff.mpr ⟨pairsMatch_of_linked same.2, pairsMatch_of_linked same.1⟩

def Total (row : Row) : Prop := ∀ name, (row name).isSome

/-- Rows that tell the columns linked to the left one of the pair from all others match. -/
theorem linked_of_total (agree : ∀ row found, Total row → Total found →
      pairsMatch others row found = true → pairsMatch pairs row found = true)
    {pair : String × String} (mem : pair ∈ pairs) :
    Linked others ⟨.left, pair.1⟩ ⟨.right, pair.2⟩ := by
  classical
  let mark (side : Side) : Row := fun name =>
    some (if Linked others ⟨.left, pair.1⟩ ⟨side, name⟩ then 1 else 0)
  have isMatch : pairsMatch others (mark .left) (mark .right) = true := by
    refine pairsMatch_iff.mpr fun other isOther => ⟨_, rfl, ?_⟩
    have link : Linked others ⟨.left, other.1⟩ ⟨.right, other.2⟩ :=
      .rel _ _ ⟨other, isOther, rfl, rfl⟩
    refine congrArg some (if_congr ⟨fun reached => ?_, fun reached => ?_⟩ rfl rfl)
    · exact reached.trans _ _ _ (link.symm _ _)
    · exact reached.trans _ _ _ link
  obtain ⟨value, isLeft, isRight⟩ :=
    pairsMatch_iff.mp (agree _ _ (fun _ => rfl) (fun _ => rfl) isMatch) pair mem
  have marked : mark .right pair.2 = some 1 := by
    refine isRight.trans (isLeft.symm.trans ?_)
    exact congrArg some (if_pos (.refl _))
  by_contra unlinked
  exact absurd (marked.symm.trans (congrArg some (if_neg unlinked))) (by decide)

theorem samePairs_of_total (agree : ∀ row found, Total row → Total found →
      pairsMatch pairs row found = pairsMatch others row found) : SamePairs pairs others :=
  ⟨fun _ => linked_of_total fun row found isTotal others isMatch =>
      (agree row found isTotal others).trans isMatch,
    fun _ => linked_of_total fun row found isTotal others isMatch =>
      (agree row found isTotal others).symm.trans isMatch⟩

/-- The columns of stream and table that the executor of a node compares, if it is planned
and its probes can find a row. -/
def LookupKind.probedColumns (text : Expr → String) (node : LookupJoinNode) :
    LookupKind → Except String (List (String × String))
  | .snapshot => do
      let lookupKeys ← resolveLookupKeys node.lookupSchema node.joinKeys
      let streamKeys ← resolveStreamKeys text node.input.fields node.joinKeys
      checkKeyTypes "Lookup" streamKeys lookupKeys
      return (names streamKeys).zip (names lookupKeys)
  | .onDemand keyColumns source => do
      let streamKeys ← resolveStreamKeys text node.input.fields node.joinKeys
      if source = .failing then .error "source fallback failed"
      else if streamKeys.map Field.dataType = keyColumns.map Field.dataType then
        return (names streamKeys).zip (names keyColumns)
      else .error "RowConverter column schema mismatch"
  | .versioned keyColumns streamTimeColumn => do
      let lookupKeys ← resolveLookupKeys node.lookupSchema node.joinKeys
      let streamKeys ← resolveStreamKeys text node.input.fields node.joinKeys
      checkKeyTypes "Temporal" streamKeys lookupKeys
      if (findField node.input.fields streamTimeColumn).isNone then
        .error "stream time column not found"
      else if streamKeys.length = keyColumns.length then
        return (names streamKeys).zip keyColumns
      else .error "key columns differ in number"

def LookupKind.evaluated (node : LookupJoinNode) : LookupKind → List Expr
  | .snapshot => node.pushdownPredicates
  | _ => []

theorem collect_length {Source Target : Type} {convert : Source → Except String Target}
    {sources : List Source} {targets : List Target}
    (collected : collect convert sources = .ok targets) : targets.length = sources.length :=
  (collect_eq_ok_iff.mp collected).length_eq.symm

variable {resolvesQualified : Bool} {evaluate : Expr → Row → Bool} {node : LookupJoinNode}

theorem snapshotRows_eq {rows : List Row} (resolved : node.pushdownPredicates.all
      (resolvable resolvesQualified (names node.lookupSchema)) = true) :
    snapshotRows resolvesQualified evaluate node rows =
      .ok (rows.filter fun row =>
        node.pushdownPredicates.all fun predicate => evaluate predicate row) := by
  unfold snapshotRows
  split
  · rename_i isTrivial
    rcases Bool.or_eq_true_iff.mp isTrivial with isEmpty | isEmpty <;>
      simp [List.isEmpty_iff.mp isEmpty]
  · rw [applyPushdownPredicates, if_pos resolved]

variable {text : Expr → String}

theorem plan_spec {registered : RegisteredLookup} {time : Int} {stream : List Row}
    (valid : registered.Valid) (atTime : registered.AtTime time stream)
    (probed : registered.kind.probedColumns text node = .ok pairs)
    (resolved : (registered.kind.evaluated node).all
      (resolvable resolvesQualified (names node.lookupSchema)) = true) :
    ∃ executor, planExtension text resolvesQualified evaluate node registered = .ok executor ∧
      executor.check = .ok () ∧
      ∀ row ∈ stream, executor.matches row = (registered.table time).filter fun found =>
        pairsMatch pairs row found &&
          (registered.kind.evaluated node).all fun predicate => evaluate predicate found := by
  cases registered with
  | snapshot rows =>
    obtain ⟨lookupKeys, isLookup, rest⟩ := bind_eq_ok probed
    obtain ⟨streamKeys, isStream, rest⟩ := bind_eq_ok rest
    obtain ⟨_, isChecked, rest⟩ := bind_eq_ok rest
    obtain rfl := Except.ok.inj rest
    have sameLength : (names streamKeys).length = (names lookupKeys).length := by
      simp only [names, length_map]
      rw [collect_length isStream, collect_length isLookup]
    refine ⟨.snapshot streamKeys (.build (rows.filter fun row =>
      node.pushdownPredicates.all fun predicate => evaluate predicate row)
        (names lookupKeys)), ?_, rfl, fun row _ => ?_⟩
    · simp only [planExtension, isLookup, snapshotRows_eq resolved, isStream, bind, Except.bind,
        isChecked]
      rfl
    · simp only [Executor.matches, HashIndex.probe_build, filter_filter, table, kind, evaluated,
        pairsMatch_zip sameLength]
      cases hasNull (keyOf (names streamKeys) row) <;> simp
  | onDemand keyColumns source entries =>
    obtain ⟨streamKeys, isStream, rest⟩ := bind_eq_ok probed
    split at rest
    · cases rest
    · rename_i notFailing
      split at rest <;> cases rest
      rename_i sameTypes
      have sameLength : (names streamKeys).length = (names keyColumns).length := by
        simpa only [names, length_map] using congrArg List.length sameTypes
      refine ⟨.onDemand streamKeys keyColumns source entries, ?_, ?_, fun row _ => ?_⟩
      · simp only [planExtension, isStream]
        rfl
      · rw [Executor.check, if_pos sameTypes]
      · have fetched : ∀ key, (fetch keyColumns source entries key).toList =
            (entries.map Entry.row).filter fun found =>
              keyOf (names keyColumns) found == key := by
          intro key
          rw [filter_map]
          simp only [Function.comp_def]
          rw [filter_eq_find? valid.1, fetch]
          cases found : entries.find? fun entry => keyOf (names keyColumns) entry.row == key with
          | none => rfl
          | some entry =>
            have available : (entry.cached || source == .answering) = true := by
              cases source with
              | absent => simp [valid.2 rfl entry (mem_of_find?_eq_some found)]
              | answering => simp
              | failing => exact absurd rfl notFailing
            simp [available]
        simp only [Executor.matches, fetched, table, kind, evaluated, pairsMatch_zip sameLength]
        cases hasNull (keyOf (names streamKeys) row) <;> simp
  | versioned keyColumns streamTimeColumn versions =>
    obtain ⟨lookupKeys, isLookup, rest⟩ := bind_eq_ok probed
    obtain ⟨streamKeys, isStream, rest⟩ := bind_eq_ok rest
    obtain ⟨_, isChecked, rest⟩ := bind_eq_ok rest
    split at rest
    · cases rest
    · rename_i hasTime
      split at rest <;> cases rest
      have keyLength : streamKeys.length = keyColumns.length := ‹_›
      obtain ⟨timeField, isTime⟩ : ∃ field,
          findField node.input.fields streamTimeColumn = some field := by
        apply Option.isSome_iff_exists.mp
        simpa [Option.isSome_iff_ne_none] using hasTime
      have sameLength : (names streamKeys).length = keyColumns.length := by
        simpa only [names, length_map] using keyLength
      refine ⟨.versioned streamKeys streamTimeColumn (.build versions keyColumns), ?_, rfl,
        fun row mem => ?_⟩
      · simp only [planExtension, isLookup, isStream, bind, Except.bind, isChecked, isTime]
        rfl
      · have rowTime := atTime row mem
        simp only [Executor.matches, rowTime, probeAtTime_build, table,
          kind, evaluated, pairsMatch_zip sameLength]
        cases hasNull (keyOf (names streamKeys) row) <;> simp

variable (time : Int) (found : Row)

/-- A table of a kind with one row, which is not in the cache if there is a source. -/
def LookupKind.single : LookupKind → RegisteredLookup
  | .snapshot => .snapshot [found]
  | .onDemand keyColumns source => .onDemand keyColumns source [⟨found, source == .absent⟩]
  | .versioned keyColumns streamTimeColumn =>
    .versioned keyColumns streamTimeColumn [⟨some time, found⟩]

theorem LookupKind.kind_single (kind : LookupKind) : (kind.single time found).kind = kind := by
  cases kind <;> rfl

theorem LookupKind.valid_single (kind : LookupKind) : (kind.single time found).Valid := by
  cases kind with
  | snapshot | versioned => trivial
  | onDemand keyColumns source => exact ⟨by simp, fun isAbsent entry mem => by
      simp [mem_singleton.mp mem, isAbsent]⟩

theorem Total.hasNull {row : Row} (total : Total row) (columns : List String) :
    hasNull (keyOf columns row) = false := by
  simp only [Lookup.hasNull, keyOf, any_map, any_eq_false, Function.comp_apply]
  intro name _
  simp [Option.isNone_iff_eq_none, Option.isSome_iff_ne_none.mp (total name)]

theorem LookupKind.table_single {found : Row} (total : Total found)
    (kind : LookupKind) : (kind.single time found).table time = [found] := by
  cases kind with
  | snapshot | onDemand => rfl
  | versioned keyColumns streamTimeColumn =>
    simp [single, table, visible, asOf, Current.apply,
      total.hasNull, KeyedMap.insert, KeyedMap.empty, KeyedMap.upsert, KeyedMap.find?]

theorem probed_of_matches {kind : LookupKind} {time : Int} {row found : Row} {executor : Executor}
    (planned : planExtension text resolvesQualified evaluate node (kind.single time found) =
      .ok executor) (checked : executor.check = .ok ()) (matched : executor.matches row ≠ []) :
    (∃ pairs, kind.probedColumns text node = .ok pairs) ∧
      (kind.evaluated node).all (resolvable resolvesQualified (names node.lookupSchema)) =
        true := by
  cases kind with
  | snapshot =>
    obtain ⟨lookupKeys, isLookup, rest⟩ := bind_eq_ok planned
    obtain ⟨indexed, isIndexed, rest⟩ := bind_eq_ok rest
    obtain ⟨streamKeys, isStream, rest⟩ := bind_eq_ok rest
    obtain ⟨_, isChecked, rest⟩ := bind_eq_ok rest
    refine ⟨⟨(names streamKeys).zip (names lookupKeys), ?_⟩, ?_⟩
    · simp only [probedColumns, isLookup, isStream, bind, Except.bind, isChecked]
      rfl
    · unfold snapshotRows at isIndexed
      split at isIndexed
      · rename_i isTrivial
        have isEmpty : node.pushdownPredicates = [] := by simpa using isTrivial
        simp [evaluated, isEmpty]
      · unfold applyPushdownPredicates at isIndexed
        split at isIndexed
        · rename_i resolved
          exact resolved
        · cases isIndexed
  | onDemand keyColumns source =>
    obtain ⟨streamKeys, isStream, rest⟩ := bind_eq_ok planned
    obtain rfl := Except.ok.inj rest
    refine ⟨⟨(names streamKeys).zip (names keyColumns), ?_⟩, rfl⟩
    have sameTypes : streamKeys.map Field.dataType = keyColumns.map Field.dataType := by
      by_contra different
      rw [Executor.check, if_neg different] at checked
      cases checked
    have notFailing : source ≠ .failing := by
      rintro rfl
      have isMiss : ∀ key, fetch keyColumns .failing
          [⟨found, SourceState.failing == .absent⟩] key = none := by
        intro key
        have notCached : (SourceState.failing == .absent) = false := rfl
        have notAnswering : (SourceState.failing == .answering) = false := rfl
        cases isKey : keyOf (names keyColumns) found == key with
        | true => simp [fetch, isKey, notCached, notAnswering]
        | false => simp [fetch, isKey]
      apply matched
      simp [Executor.matches, isMiss]
    simp only [probedColumns, isStream, bind, Except.bind]
    rw [if_neg notFailing, if_pos sameTypes]
    rfl
  | versioned keyColumns streamTimeColumn =>
    obtain ⟨lookupKeys, isLookup, rest⟩ := bind_eq_ok planned
    obtain ⟨streamKeys, isStream, rest⟩ := bind_eq_ok rest
    obtain ⟨_, isChecked, rest⟩ := bind_eq_ok rest
    cases isTime : findField node.input.fields streamTimeColumn with
    | none => simp [isTime] at rest
    | some timeField =>
      simp only [isTime] at rest
      obtain rfl := Except.ok.inj rest
      refine ⟨⟨(names streamKeys).zip keyColumns, ?_⟩, rfl⟩
      have sameLength : streamKeys.length = keyColumns.length := by
        simp only [Executor.matches] at matched
        split at matched
        · exact absurd rfl matched
        · split at matched
          · exact absurd rfl matched
          · rw [probeAtTime_build] at matched
            obtain ⟨other, mem⟩ := exists_mem_of_ne_nil _ matched
            have sameKey := beq_iff_eq.mp (mem_filter.mp mem).2
            simpa [keyOf, names, eq_comm] using congrArg List.length sameKey
      simp only [probedColumns, isLookup, isStream, bind, Except.bind, isChecked]
      rw [if_neg (by simp [isTime]), if_pos sameLength]
      rfl

end LaminarDB.Sql.Lookup
