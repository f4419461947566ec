import LaminarDB.Sql.LookupProbes

/-!
# Equivalence of planned lookup joins

Planning keeps the rows of a query exactly when the names of the columns differ, the
executor compares the columns of the join, and every conjunct of `ON` and `WHERE` is pushed
down to a snapshot. Nothing evaluates the rest of `ON` or the predicates that stay local,
and the executors of the other tables evaluate no predicate at all.
-/

namespace LaminarDB.Sql.Lookup

open Library Result List LookupJoinNode LookupKind

def columnPairs : List (Expr × Expr) → Option (List (String × String))
  | [] => some []
  | (.column _ first, .column _ second) :: pairs =>
    (columnPairs pairs).map fun others => (first, second) :: others
  | _ => none

namespace LookupQuery

section Definitions

variable (engine : Engine) (query : LookupQuery) (joinType : LookupJoinType)

def rewritten : LookupJoinNode where
  input := query.join.stream query.lookupIsRight
  lookupTable := query.table
  lookupSchema := query.lookupFields
  joinKeys := query.keys.map fun pair => ⟨pair.1, engine.text pair.2⟩
  joinType := joinType
  pushdownPredicates := []
  localPredicates := []
  lookupAlias := (scanTableNameAndAlias (query.join.lookup query.lookupIsRight)).bind Prod.snd
  streamAlias := (scanTableNameAndAlias (query.join.stream query.lookupIsRight)).bind Prod.snd

def node : LookupJoinNode :=
  (query.rewritten engine joinType).splitPredicates engine.mode query.predicate

def Distinct : Prop := (names (query.streamFields ++ query.lookupFields)).Nodup

variable (kind : LookupKind)

/-- A conjunct of `WHERE` on the lookup table, of an inner join with a snapshot whose source
takes predicates. It has no `!=`, and its columns are found. -/
structure Pushed (conjunct : Expr) : Prop where
  isSnapshot : kind = .snapshot
  isInner : joinType = .inner
  inWhere : conjunct ∈ conjunctsOf query.predicate
  isLookupOnly : (query.rewritten engine joinType).classifier.classify conjunct = .lookupOnly
  takesPredicates : engine.mode.all (· == .none) = false
  noNotEq : containsNotEq conjunct = false
  isResolvable : resolvable engine.resolvesQualified (names query.lookupFields) conjunct = true

def StreamKeys (fields : List Field) : Prop :=
  Forall₂ (fun pair field => ∃ relation name, pair.1 = .column relation name ∧
    findField query.streamFields name = some field) query.keys fields

/-- The keys of the table, as they are displayed, are names of its schema. -/
def LookupKeys (fields : List Field) : Prop :=
  Forall₂ (fun pair field =>
    findField query.lookupFields (engine.text pair.2) = some field) query.keys fields

def SameTypes (streamKeys lookupKeys : List Field) : Prop :=
  ∀ pair ∈ streamKeys.zip lookupKeys, pair.1.dataType = pair.2.dataType

/-- The columns of the table that the keys of the stream are compared with. -/
def Compared (streamKeys : List Field) (columns : List String) : LookupKind → Prop
  | .snapshot => ∃ lookupKeys, query.LookupKeys engine lookupKeys ∧
      SameTypes streamKeys lookupKeys ∧ columns = names lookupKeys
  | .onDemand keyColumns source => source ≠ .failing ∧
      streamKeys.map Field.dataType = keyColumns.map Field.dataType ∧ columns = names keyColumns
  | .versioned keyColumns streamTimeColumn =>
    (∃ lookupKeys, query.LookupKeys engine lookupKeys ∧ SameTypes streamKeys lookupKeys) ∧
      (findField query.streamFields streamTimeColumn).isSome ∧
      streamKeys.length = keyColumns.length ∧ columns = keyColumns

/-- Every conjunct is pushed down, and the columns that are compared are those of the join. -/
structure Evaluable : Prop where
  distinct : query.Distinct
  pushed : ∀ conjunct ∈ query.conjuncts, query.Pushed engine joinType kind conjunct
  keys : ∃ streamKeys columns joined, query.StreamKeys streamKeys ∧
    query.Compared engine streamKeys columns kind ∧ columnPairs query.keys = some joined ∧
      SamePairs joined ((names streamKeys).zip columns)

def Sound : Prop :=
  ∀ joinType, lookupJoinType query.lookupIsRight query.join.joinType = some joinType →
    query.Evaluable engine joinType kind

end Definitions

variable {engine : Engine} {query : LookupQuery} {joinType : LookupJoinType}

variable (fires : lookupJoinType query.lookupIsRight query.join.joinType = some joinType)
  {meaning : query.Meaning engine} {stream table : List Row}

include fires in
theorem rewriteJoin_eq (distinct : query.Distinct) :
    rewriteJoin engine.text query.lookupTables query.join =
      .ok (some (query.rewritten engine joinType)) := by
  simp only [rewriteJoin, query.isLookup, fires]
  exact if_pos distinct

include fires in
theorem distinct_of_rewriteJoin {result : Option LookupJoinNode}
    (rewrote : rewriteJoin engine.text query.lookupTables query.join = .ok result) :
    query.Distinct := by
  simp only [rewriteJoin, query.isLookup, fires] at rewrote
  split at rewrote
  · assumption
  · cases rewrote

theorem pushdownPredicates_node : (query.node engine joinType).pushdownPredicates =
    (conjunctsOf query.predicate).filter
      ((query.rewritten engine joinType).pushes engine.mode) := by
  unfold node splitPredicates
  cases query.predicate with
  | none => rfl
  | some predicate =>
    simp [withSplit, splitForNode, conjunctsOf, rewritten, partition_eq_filter_filter]

theorem node_eq : query.node engine joinType =
    { query.rewritten engine joinType with
      pushdownPredicates := (query.node engine joinType).pushdownPredicates
      localPredicates := (query.node engine joinType).localPredicates } := by
  unfold node splitPredicates
  cases query.predicate <;> rfl

theorem joinType_node : (query.node engine joinType).joinType = joinType := by
  rw [node_eq]
  rfl

theorem lookupSchema_node : (query.node engine joinType).lookupSchema = query.lookupFields := by
  rw [node_eq]
  rfl

include fires in
theorem execute_eq (distinct : query.Distinct) (registered : RegisteredLookup) (time : Int) :
    query.execute meaning registered time stream =
      (planExtension engine.text engine.resolvesQualified
        (fun predicate found => meaning.holds predicate (none, some found))
        (query.node engine joinType) registered).bind
          fun executor => executor.run joinType stream := by
  unfold execute
  rw [rewriteJoin_eq fires distinct]
  have sameType : ((query.rewritten engine joinType).splitPredicates engine.mode
      query.predicate).joinType = joinType := joinType_node
  simp only [bind, Except.bind, sameType]
  rfl

variable {conjunct : Expr} {kind : LookupKind}

theorem pushes_iff :
    (query.rewritten engine joinType).pushes engine.mode conjunct = true ↔
      (query.rewritten engine joinType).classifier.classify conjunct = .lookupOnly ∧
        joinType = .inner ∧ engine.mode.all (· == .none) = false ∧
          containsNotEq conjunct = false := by
  cases joinType <;> simp [pushes, rewritten]

theorem pushed_iff :
    query.Pushed engine joinType kind conjunct ↔
      conjunct ∈ kind.evaluated (query.node engine joinType) ∧
        resolvable engine.resolvesQualified (names query.lookupFields) conjunct = true := by
  cases kind with
  | snapshot =>
    rw [evaluated, pushdownPredicates_node, mem_filter, pushes_iff]
    constructor
    · intro pushed
      exact ⟨⟨pushed.inWhere, pushed.isLookupOnly, pushed.isInner, pushed.takesPredicates,
        pushed.noNotEq⟩, pushed.isResolvable⟩
    · rintro ⟨⟨inWhere, isLookupOnly, isInner, takesPredicates, noNotEq⟩, isResolvable⟩
      exact ⟨rfl, isInner, inWhere, isLookupOnly, takesPredicates, noNotEq, isResolvable⟩
  | onDemand | versioned =>
    constructor
    · intro pushed
      cases pushed.isSnapshot
    · intro both
      cases both.1

theorem mem_conjuncts_of_evaluated (mem : conjunct ∈ kind.evaluated (query.node engine joinType)) :
    conjunct ∈ query.conjuncts := by
  cases kind with
  | snapshot =>
    rw [evaluated, pushdownPredicates_node] at mem
    exact mem_append_right _ (mem_filter.mp mem).1
  | onDemand | versioned => cases mem

variable {fields : List Field}

theorem resolveStreamKeys_eq_ok_iff :
    resolveStreamKeys engine.text (query.node engine joinType).input.fields
      (query.node engine joinType).joinKeys = .ok fields ↔ query.StreamKeys fields := by
  rw [node_eq, resolveStreamKeys, collect_eq_ok_iff, StreamKeys]
  simp only [rewritten, forall₂_map_left_iff]
  refine iff_of_eq (congrArg (Forall₂ · _ _) (funext₂ fun pair field => propext ?_))
  cases pair.1 with
  | column relation name =>
    rw [streamFields]
    cases isFound : findField (query.join.stream query.lookupIsRight).fields name <;>
      simp [isFound]
  | literal | binary | not | node | other => simp

theorem resolveLookupKeys_eq_ok_iff :
    resolveLookupKeys (query.node engine joinType).lookupSchema
      (query.node engine joinType).joinKeys = .ok fields ↔ query.LookupKeys engine fields := by
  rw [node_eq, resolveLookupKeys, collect_eq_ok_iff, LookupKeys]
  simp only [rewritten, forall₂_map_left_iff]
  refine iff_of_eq (congrArg (Forall₂ · _ _) (funext₂ fun pair field => propext ?_))
  cases isFound : findField query.lookupFields (engine.text pair.2) <;> simp

theorem checkKeyTypes_eq_ok_iff {message : String} {streamKeys lookupKeys : List Field}
    {checked : Unit} : checkKeyTypes message streamKeys lookupKeys = .ok checked ↔
      SameTypes streamKeys lookupKeys := by
  unfold checkKeyTypes SameTypes
  split
  · rename_i agree
    exact ⟨fun _ pair mem => beq_iff_eq.mp (all_eq_true.mp agree pair mem), fun _ => rfl⟩
  · rename_i disagree
    refine ⟨nofun, fun same => absurd ?_ disagree⟩
    exact all_eq_true.mpr fun pair mem => beq_iff_eq.mpr (same pair mem)

variable {probed : List (String × String)}

theorem probedColumns_eq_ok_iff :
    kind.probedColumns engine.text (query.node engine joinType) = .ok probed ↔
      ∃ streamKeys columns, query.StreamKeys streamKeys ∧
        query.Compared engine streamKeys columns kind ∧
          probed = (names streamKeys).zip columns := by
  have sameInput : (query.node engine joinType).input.fields = query.streamFields := by
    rw [node_eq]
    rfl
  cases kind with
  | snapshot =>
    simp only [probedColumns, bind_eq_ok_iff, resolveLookupKeys_eq_ok_iff,
      resolveStreamKeys_eq_ok_iff, checkKeyTypes_eq_ok_iff, pure, Except.pure, Except.ok.injEq,
      Compared]
    constructor
    · rintro ⟨lookupKeys, isLookup, streamKeys, isStream, _, sameTypes, rfl⟩
      exact ⟨streamKeys, _, isStream, ⟨lookupKeys, isLookup, sameTypes, rfl⟩, rfl⟩
    · rintro ⟨streamKeys, _, isStream, ⟨lookupKeys, isLookup, sameTypes, rfl⟩, rfl⟩
      exact ⟨lookupKeys, isLookup, streamKeys, isStream, (), sameTypes, rfl⟩
  | onDemand keyColumns source =>
    simp only [probedColumns, bind_eq_ok_iff, resolveStreamKeys_eq_ok_iff, Compared]
    constructor
    · rintro ⟨streamKeys, isStream, rest⟩
      split at rest
      · cases rest
      · split at rest
        · exact ⟨streamKeys, _, isStream, ⟨‹_›, ‹_›, rfl⟩, (Except.ok.inj rest).symm⟩
        · cases rest
    · rintro ⟨streamKeys, _, isStream, ⟨notFailing, sameTypes, rfl⟩, rfl⟩
      exact ⟨streamKeys, isStream, by rw [if_neg notFailing, if_pos sameTypes]; rfl⟩
  | versioned keyColumns streamTimeColumn =>
    simp only [probedColumns, bind_eq_ok_iff, resolveLookupKeys_eq_ok_iff,
      resolveStreamKeys_eq_ok_iff, checkKeyTypes_eq_ok_iff, Compared]
    constructor
    · rintro ⟨lookupKeys, isLookup, streamKeys, isStream, _, sameTypes, rest⟩
      split at rest
      · cases rest
      · rename_i hasTime
        rw [sameInput, Option.isNone_iff_eq_none, ← ne_eq, ← Option.isSome_iff_ne_none] at hasTime
        split at rest
        · exact ⟨streamKeys, _, isStream, ⟨⟨lookupKeys, isLookup, sameTypes⟩, hasTime, ‹_›, rfl⟩,
            (Except.ok.inj rest).symm⟩
        · cases rest
    · rintro ⟨streamKeys, _, isStream,
        ⟨⟨lookupKeys, isLookup, sameTypes⟩, hasTime, sameLength, rfl⟩, rfl⟩
      refine ⟨lookupKeys, isLookup, streamKeys, isStream, (), sameTypes, ?_⟩
      rw [sameInput, if_neg (by simpa [Option.isNone_iff_eq_none, Option.isSome_iff_ne_none]
        using hasTime), if_pos sameLength]
      rfl

variable (meaning : query.Meaning engine) {row found : Row}

theorem all_conjunctsOf (expr : Option Expr) {row : JoinedRow} :
    ((conjunctsOf expr).all fun part => meaning.holds part row) =
      expr.all fun whole => meaning.holds whole row := by
  cases expr with
  | none => rfl
  | some whole => exact (meaning.holds_splitConjunction).symm

theorem all_conjuncts (row : JoinedRow) :
    (query.conjuncts.all fun part => meaning.holds part row) =
      (query.join.filter.all (fun filter => meaning.holds filter row) &&
        query.admits meaning row) := by
  rw [conjuncts, all_append, all_conjunctsOf, all_conjunctsOf, admits]

theorem matching_and_admits :
    (query.matching meaning row found && query.admits meaning (some row, some found)) =
      (query.sameKeys meaning row found &&
        query.conjuncts.all fun part => meaning.holds part (some row, some found)) := by
  rw [all_conjuncts, matching, Bool.and_assoc]

theorem sameKeys_of_columnPairs {columns : List (String × String)}
    (areColumns : columnPairs query.keys = some columns) :
    query.sameKeys meaning row found = pairsMatch columns row found := by
  unfold sameKeys
  generalize query.keys = keys at areColumns
  fun_induction columnPairs keys generalizing columns with
  | case1 =>
    obtain rfl := Option.some.inj areColumns
    rfl
  | case2 firstRelation first secondRelation second pairs ih =>
    obtain ⟨others, isRest, rfl⟩ := Option.map_eq_some_iff.mp areColumns
    simp only [pairsMatch, all_cons, meaning.columnValue]
    exact congrArg _ (ih isRest)
  | case3 => cases areColumns

theorem disjoint_of_distinct (distinct : query.Distinct) :
    ∀ name ∈ names query.lookupFields, name ∉ names query.streamFields := by
  intro name inLookup inStream
  rw [Distinct, names, map_append] at distinct
  exact (nodup_append.mp distinct).2.2 name inStream name inLookup rfl

section Evaluable

variable (evaluable : query.Evaluable engine joinType kind)
include evaluable

theorem Evaluable.resolved : (kind.evaluated (query.node engine joinType)).all
    (resolvable engine.resolvesQualified (names query.lookupFields)) = true := by
  apply all_eq_true.mpr
  intro part mem
  exact (evaluable.pushed part (mem_conjuncts_of_evaluated mem)).isResolvable

theorem Evaluable.tests_eq : ∃ probed,
    kind.probedColumns engine.text (query.node engine joinType) = .ok probed ∧
      ∀ (meaning : query.Meaning engine) (row found : Row),
        (pairsMatch probed row found && (kind.evaluated (query.node engine joinType)).all
          fun predicate => meaning.holds predicate (none, some found)) =
            (query.matching meaning row found && query.admits meaning (some row, some found)) := by
  obtain ⟨streamKeys, columns, joined, isStream, compared, areColumns, same⟩ := evaluable.keys
  refine ⟨_, probedColumns_eq_ok_iff.mpr ⟨streamKeys, columns, isStream, compared, rfl⟩, ?_⟩
  intro meaning row found
  have onPair : ∀ part ∈ kind.evaluated (query.node engine joinType),
      meaning.holds part (some row, some found) = meaning.holds part (none, some found) := by
    intro part mem
    apply meaning.onLookup (disjoint_of_distinct evaluable.distinct)
    exact all_eq_true.mp evaluable.resolved part mem
  have sameConjuncts : ((kind.evaluated (query.node engine joinType)).all
      fun predicate => meaning.holds predicate (none, some found)) =
        query.conjuncts.all fun part => meaning.holds part (some row, some found) := by
    apply Bool.eq_iff_iff.mpr
    simp only [all_eq_true]
    constructor
    · intro all part mem
      have isEvaluated := (pushed_iff.mp (evaluable.pushed part mem)).1
      rw [onPair part isEvaluated]
      exact all part isEvaluated
    · intro all part mem
      rw [← onPair part mem]
      exact all part (mem_conjuncts_of_evaluated mem)
  rw [matching_and_admits, sameConjuncts, sameKeys_of_columnPairs meaning areColumns,
    same.pairsMatch_eq]

end Evaluable

include fires in
theorem rows_eq :
    query.rows meaning table stream = stream.flatMap fun row =>
      (emit joinType row (table.filter (query.matching meaning row))).filter
        (query.admits meaning) := by
  have outer : streamOuterRows (query.matching meaning) stream table =
      stream.flatMap fun row =>
        emit .leftOuter row (table.filter (query.matching meaning row)) := by
    unfold streamOuterRows
    congr 1
    funext row
    cases table.filter (query.matching meaning row) <;> rfl
  unfold rows
  rw [← filter_flatMap]
  cases isType : query.join.joinType with
  | inner =>
    obtain rfl : LookupJoinType.inner = joinType := by simpa [lookupJoinType, isType] using fires
    rfl
  | left =>
    cases side : query.lookupIsRight with
    | true =>
      obtain rfl : LookupJoinType.leftOuter = joinType := by
        simpa [lookupJoinType, isType, side] using fires
      exact congrArg _ outer
    | false => simp [lookupJoinType, isType, side] at fires
  | right =>
    cases side : query.lookupIsRight with
    | true => simp [lookupJoinType, isType, side] at fires
    | false =>
      obtain rfl : LookupJoinType.leftOuter = joinType := by
        simpa [lookupJoinType, isType, side] using fires
      exact congrArg _ outer

theorem Evaluable.emit_eq (evaluable : query.Evaluable engine joinType kind) {tests : Row → Bool}
    (isTest : ∀ found, tests found =
      (query.matching meaning row found && query.admits meaning (some row, some found))) :
    emit joinType row (table.filter tests) =
      (emit joinType row (table.filter (query.matching meaning row))).filter
        (query.admits meaning) := by
  cases joinType with
  | inner =>
    have sameTests : tests = fun found =>
        query.matching meaning row found && query.admits meaning (some row, some found) :=
      funext isTest
    simp only [emit, filter_map, filter_filter, sameTests, Function.comp_def, Bool.and_comm]
  | leftOuter =>
    have noConjuncts : query.conjuncts = [] := by
      apply eq_nil_iff_forall_not_mem.mpr
      intro part mem
      cases (evaluable.pushed part mem).isInner
    have allAdmitted : ∀ joined, query.admits meaning joined = true := by
      intro joined
      have both := all_conjuncts meaning joined
      rw [noConjuncts] at both
      exact (Bool.and_eq_true_iff.mp both.symm).2
    have sameTests : tests = query.matching meaning row := by
      funext found
      rw [isTest, allAdmitted, Bool.and_true]
    rw [sameTests, filter_eq_self.mpr fun joined _ => allAdmitted joined]

theorem run_eq {executor : Executor} (checked : executor.check = .ok ()) :
    executor.run joinType stream =
      .ok (stream.flatMap fun row => emit joinType row (executor.matches row)) := by
  unfold Executor.run
  rw [checked]
  cases stream <;> rfl

theorem preserved_of_sound (sound : query.Sound engine kind) : query.Preserved engine kind := by
  rintro registered rfl valid meaning time stream atTime
  refine ⟨query.rows meaning (registered.table time) stream, ?_, .refl _⟩
  cases fires : lookupJoinType query.lookupIsRight query.join.joinType with
  | none =>
    simp only [execute, rewriteJoin, query.isLookup, fires]
    rfl
  | some joinType =>
    have evaluable := sound joinType fires
    obtain ⟨probed, isProbed, isTest⟩ := evaluable.tests_eq
    have resolved := evaluable.resolved
    rw [← @lookupSchema_node engine query joinType] at resolved
    obtain ⟨executor, planned, checked, found⟩ := plan_spec valid atTime isProbed resolved
    rw [execute_eq fires evaluable.distinct, planned, Except.bind, run_eq checked, rows_eq fires]
    congr 1
    apply flatMap_congr
    intro row mem
    rw [found row mem]
    apply evaluable.emit_eq
    exact isTest meaning row

/-- Predicates that are true or false of all rows, and one value for all keys that are not
columns. -/
def constantMeaning (query : LookupQuery) (engine : Engine) (truth : Expr → Bool)
    (other : Option Int) : query.Meaning engine where
  holds expr _ := (splitConjunction expr).all truth
  value expr row :=
    match expr with
    | .column _ name => row name
    | _ => other
  conjunction left right row := by simp [splitConjunction]
  columnValue _ _ _ := rfl
  onLookup _ _ _ _ _ := rfl

variable {part : Expr}

theorem splitConjunction_part {whole : Expr} (mem : part ∈ splitConjunction whole) :
    splitConjunction part = [part] := by
  fun_induction splitConjunction whole with
  | case1 left right leftHypothesis rightHypothesis =>
    rcases mem_append.mp mem with inLeft | inRight
    · exact leftHypothesis inLeft
    · exact rightHypothesis inRight
  | case2 other notAnd =>
    obtain rfl := mem_singleton.mp mem
    unfold splitConjunction
    split
    · exact absurd rfl (notAnd _ _)
    · rfl

variable {truth : Expr → Bool} {other : Option Int}

theorem holds_constantMeaning (mem : part ∈ query.conjuncts) {row : JoinedRow} :
    (query.constantMeaning engine truth other).holds part row = truth part := by
  have isPart : ∀ whole, part ∈ conjunctsOf whole → splitConjunction part = [part]
    | some _, inside => splitConjunction_part inside
  simp [constantMeaning, (mem_append.mp mem).elim (isPart _) (isPart _)]

theorem all_true_constantMeaning {row : JoinedRow} :
    (query.conjuncts.all fun part =>
      (query.constantMeaning engine (fun _ => true) other).holds part row) = true := by
  apply all_eq_true.mpr
  intro part mem
  exact holds_constantMeaning mem

theorem sameKeys_of_not_columns (notColumns : columnPairs query.keys = none) :
    query.sameKeys (query.constantMeaning engine truth none) row found = false := by
  unfold sameKeys
  generalize query.keys = keys at notColumns
  fun_induction columnPairs keys with
  | case1 => cases notColumns
  | case2 firstRelation first secondRelation second pairs ih =>
    rw [all_cons, ih (Option.map_eq_none_iff.mp notColumns), Bool.and_false]
  | case3 keys notNil notPair =>
    cases keys with
    | nil => exact absurd rfl notNil
    | cons pair pairs =>
      rcases pair with ⟨first, second⟩
      apply Bool.and_eq_false_imp.mpr
      intro isEqual
      obtain ⟨value, isFirst, isSecond⟩ := equalCells_iff.mp isEqual
      cases first with
      | column firstRelation firstName =>
        cases second with
        | column secondRelation secondName => exact absurd rfl (notPair _ _ _ _ _)
        | _ => cases isSecond
      | _ => cases isFirst

def zeroRow : Row := fun _ => some 0

theorem total_zeroRow : Total zeroRow := fun _ => rfl

theorem pairsMatch_zeroRow (pairs : List (String × String)) :
    pairsMatch pairs zeroRow zeroRow = true := by
  simp [pairsMatch, zeroRow, equalCells]

def timeOf (kind : LookupKind) (row : Row) : Int :=
  match kind with
  | .versioned _ streamTimeColumn => (row streamTimeColumn).getD 0
  | _ => 0

theorem atTime_single (total : Total row) :
    (kind.single (timeOf kind row) found).AtTime (timeOf kind row) [row] := by
  cases kind with
  | snapshot | onDemand => trivial
  | versioned keyColumns streamTimeColumn =>
    intro other mem
    obtain rfl := mem_singleton.mp mem
    obtain ⟨value, isValue⟩ := Option.isSome_iff_exists.mp (total streamTimeColumn)
    simp [timeOf, isValue]

theorem mem_emit_single {test : Bool} :
    (some row, some found) ∈ emit joinType row ([found].filter fun _ => test) ↔ test = true := by
  cases joinType <;> cases test <;> simp [emit]

section Single

variable (fires : lookupJoinType query.lookupIsRight query.join.joinType = some joinType)
  (preserved : query.Preserved engine kind)
include fires preserved

theorem run_single {meaning : query.Meaning engine} (rowTotal : Total row)
    (foundTotal : Total found) :
    query.Distinct ∧ ∃ executor,
      planExtension engine.text engine.resolvesQualified
        (fun predicate found => meaning.holds predicate (none, some found))
        (query.node engine joinType) (kind.single (timeOf kind row) found) = .ok executor ∧
      executor.check = .ok () ∧
      ((some row, some found) ∈ emit joinType row (executor.matches row) ↔
        (query.matching meaning row found &&
          query.admits meaning (some row, some found)) = true) := by
  obtain ⟨rows, executed, same⟩ := preserved (kind.single (timeOf kind row) found)
    (kind.kind_single _ _) (kind.valid_single _ _) meaning (timeOf kind row) [row]
    (atTime_single rowTotal)
  have distinct : query.Distinct := by
    obtain ⟨result, rewrote, _⟩ := bind_eq_ok executed
    exact distinct_of_rewriteJoin fires rewrote
  rw [execute_eq fires distinct] at executed
  obtain ⟨executor, planned, ran⟩ := bind_eq_ok executed
  obtain ⟨_, checked, _⟩ := bind_eq_ok ran
  rw [run_eq checked] at ran
  obtain rfl := Except.ok.inj ran
  rw [kind.table_single _ foundTotal, rows_eq fires, flatMap_singleton, flatMap_singleton] at same
  refine ⟨distinct, executor, planned, checked, ?_⟩
  have sameFilter : [found].filter (query.matching meaning row) =
      [found].filter fun _ => query.matching meaning row found := by
    simp [filter_singleton]
  rw [same.mem_iff, mem_filter, sameFilter, mem_emit_single, Bool.and_eq_true]

theorem probed_single : query.Distinct ∧
    (∃ probed, kind.probedColumns engine.text (query.node engine joinType) = .ok probed) ∧
      (kind.evaluated (query.node engine joinType)).all
        (resolvable engine.resolvesQualified (names query.lookupFields)) = true := by
  obtain ⟨distinct, executor, planned, checked, isEmitted⟩ := run_single fires preserved
    total_zeroRow total_zeroRow
  have zeroValue : ∀ expr,
      (query.constantMeaning engine (fun _ => true) (some 0)).value expr zeroRow = some 0 := by
    intro expr
    cases expr <;> rfl
  have sameKeys : query.sameKeys (query.constantMeaning engine (fun _ => true) (some 0))
      zeroRow zeroRow = true := by
    simp [sameKeys, zeroValue, equalCells]
  rw [matching_and_admits, sameKeys, all_true_constantMeaning] at isEmitted
  have matched : executor.matches zeroRow ≠ [] := by
    intro isEmpty
    have emitted := isEmitted.mpr rfl
    rw [isEmpty] at emitted
    cases joinType <;> simp [emit] at emitted
  obtain ⟨probed, resolved⟩ := probed_of_matches planned checked matched
  rw [lookupSchema_node] at resolved
  exact ⟨distinct, probed, resolved⟩

theorem tests_single
    (isProbed : kind.probedColumns engine.text (query.node engine joinType) = .ok probed)
    (meaning : query.Meaning engine) (rowTotal : Total row) (foundTotal : Total found) :
    (pairsMatch probed row found && (kind.evaluated (query.node engine joinType)).all
      fun predicate => meaning.holds predicate (none, some found)) =
        (query.sameKeys meaning row found &&
          query.conjuncts.all fun part => meaning.holds part (some row, some found)) := by
  obtain ⟨_, executor, planned, _, isEmitted⟩ := run_single fires preserved rowTotal foundTotal
  have resolved := (probed_single fires preserved).2.2
  have sameKind := kind.kind_single (timeOf kind row) found
  rw [← @lookupSchema_node engine query joinType, ← sameKind] at resolved
  rw [← sameKind] at isProbed
  obtain ⟨other, plannedOther, _, isFound⟩ := plan_spec (kind.valid_single (timeOf kind row) found)
    (atTime_single rowTotal) isProbed resolved
  obtain rfl : other = executor := Except.ok.inj (plannedOther.symm.trans planned)
  rw [isFound row (mem_singleton_self row), kind.table_single _ foundTotal, sameKind,
    matching_and_admits] at isEmitted
  apply Bool.eq_iff_iff.mpr
  rw [← isEmitted, ← @mem_emit_single joinType row found]
  simp [filter_singleton]

theorem evaluable_of_preserved : query.Evaluable engine joinType kind := by
  obtain ⟨distinct, ⟨probed, isProbed⟩, resolved⟩ := probed_single fires preserved
  have evaluatedTrue : ∀ truth found, (∀ part ∈ kind.evaluated (query.node engine joinType),
      truth part = true) → ((kind.evaluated (query.node engine joinType)).all fun predicate =>
        (query.constantMeaning engine truth none).holds predicate (none, some found)) =
          true := by
    intro truth found allTrue
    apply all_eq_true.mpr
    intro part mem
    rw [holds_constantMeaning (mem_conjuncts_of_evaluated mem)]
    exact allTrue part mem
  have areColumns : ∃ joined, columnPairs query.keys = some joined := by
    apply Option.ne_none_iff_exists'.mp
    intro notColumns
    have tests := tests_single fires preserved isProbed
      (query.constantMeaning engine (fun _ => true) none) total_zeroRow total_zeroRow
    rw [sameKeys_of_not_columns notColumns, pairsMatch_zeroRow,
      evaluatedTrue _ _ fun _ _ => rfl] at tests
    cases tests
  obtain ⟨joined, isJoined⟩ := areColumns
  refine ⟨distinct, ?_, ?_⟩
  · intro conjunct mem
    have isEvaluated : conjunct ∈ kind.evaluated (query.node engine joinType) := by
      classical
      by_contra notEvaluated
      have tests := tests_single fires preserved isProbed
        (query.constantMeaning engine (fun part => decide (part ≠ conjunct)) none)
        total_zeroRow total_zeroRow
      have othersTrue : ∀ part ∈ kind.evaluated (query.node engine joinType),
          decide (part ≠ conjunct) = true := by
        intro part isPart
        apply decide_eq_true
        rintro rfl
        exact notEvaluated isPart
      rw [pairsMatch_zeroRow, evaluatedTrue _ _ othersTrue] at tests
      have holds := all_eq_true.mp (Bool.and_eq_true_iff.mp tests.symm).2 conjunct mem
      rw [holds_constantMeaning mem] at holds
      exact of_decide_eq_true holds rfl
    exact pushed_iff.mpr ⟨isEvaluated, all_eq_true.mp resolved conjunct isEvaluated⟩
  · obtain ⟨streamKeys, columns, isStream, compared, rfl⟩ := probedColumns_eq_ok_iff.mp isProbed
    refine ⟨streamKeys, columns, joined, isStream, compared, isJoined, ?_⟩
    apply samePairs_of_total
    intro row found rowTotal foundTotal
    have tests := tests_single fires preserved isProbed
      (query.constantMeaning engine (fun _ => true) none) rowTotal foundTotal
    rw [evaluatedTrue _ found fun _ _ => rfl, all_true_constantMeaning, Bool.and_true,
      Bool.and_true, sameKeys_of_columnPairs _ isJoined] at tests
    exact tests.symm

end Single

theorem preserved_iff_sound (engine : Engine) (query : LookupQuery) (kind : LookupKind) :
    query.Preserved engine kind ↔ query.Sound engine kind :=
  ⟨fun preserved _ fires => evaluable_of_preserved fires preserved, preserved_of_sound⟩

def cellOf (streamColumns : List String) (row : JoinedRow) (name : String) : Option Int :=
  if streamColumns.contains name then row.1.bind (· name) else row.2.bind (· name)

def exceedsHundred (streamColumns : List String) (row : JoinedRow) : Expr → Bool
  | .binary left .and right =>
    exceedsHundred streamColumns row left && exceedsHundred streamColumns row right
  | .binary (.column _ name) (.other ">") (.literal "100") =>
    (cellOf streamColumns row name).any (100 < ·)
  | _ => true

theorem exceedsHundred_onLookup {streamColumns lookupColumns : List String}
    {resolvesQualified : Bool} (disjoint : ∀ name ∈ lookupColumns, name ∉ streamColumns)
    (predicate : Expr) (stream lookup : Row)
    (isResolvable : resolvable resolvesQualified lookupColumns predicate = true) :
    exceedsHundred streamColumns (some stream, some lookup) predicate =
      exceedsHundred streamColumns (none, some lookup) predicate := by
  fun_induction exceedsHundred streamColumns (some stream, some lookup) predicate with
  | case1 left right leftHypothesis rightHypothesis =>
    simp only [resolvable, Bool.and_eq_true] at isResolvable
    rw [leftHypothesis isResolvable.1, rightHypothesis isResolvable.2]
    rfl
  | case2 relation name =>
    simp only [resolvable, Bool.and_eq_true, contains_iff_mem] at isResolvable
    have notStream := disjoint name isResolvable.1.2
    simp [exceedsHundred, cellOf, notStream]
  | case3 predicate notAnd notComparison =>
    unfold exceedsHundred
    split
    · exact absurd rfl (notAnd _ _)
    · exact absurd rfl (notComparison _ _)
    · rfl

def hundredMeaning (query : LookupQuery) (engine : Engine) : query.Meaning engine where
  holds expr row := exceedsHundred (names query.streamFields) row expr
  value expr row :=
    match expr with
    | .column _ name => row name
    | _ => none
  conjunction _ _ _ := rfl
  columnValue _ _ _ := rfl
  onLookup := exceedsHundred_onLookup

def displayed : Engine where
  text expr :=
    match expr with
    | .column none name => name
    | .column (some relation) name => relation ++ "." ++ name
    | _ => ""
  mode := some .full
  resolvesQualified := false

/-- `orders JOIN customers` on a key, with the rest of `ON` and `WHERE`. -/
def ordersJoin (key : Expr) (filter predicate : Option Expr) : LookupQuery where
  join :=
    { left := .tableScan "orders" [⟨"customer_id", .int64⟩, ⟨"amount", .int64⟩]
      right := .tableScan "customers" [⟨"id", .int64⟩, ⟨"score", .int64⟩]
      on := [(.column none "customer_id", key)]
      filter := filter
      joinType := .inner }
  predicate := predicate
  lookupTables := ["customers"]
  lookupIsRight := true
  table := "customers"
  isLookup := rfl
  hasKeys := cons_ne_nil _ _

def exceeds (name : String) : Expr :=
  .binary (.column none name) (.other ">") (.literal "100")

def smallOrder : Row := fun name =>
  if name = "customer_id" then some 1 else if name = "amount" then some 50 else none

def smallCustomer : Row := fun name =>
  if name = "id" then some 1 else if name = "score" then some 50 else none

/-- The order below one hundred is kept although `WHERE` or `ON` asks for more, the customer
below one hundred is kept by a table that is filled on demand, and the join by a qualified
key is not planned. -/
theorem lookup_rows_differ :
    (∃ rows, (ordersJoin (.column none "id") none (some (exceeds "amount"))).execute
        (hundredMeaning _ displayed) (.snapshot [smallCustomer]) 0 [smallOrder] = .ok rows ∧
      rows.length = 1 ∧
      ((ordersJoin (.column none "id") none (some (exceeds "amount"))).rows
        (hundredMeaning _ displayed) [smallCustomer] [smallOrder]).length = 0) ∧
    (∃ rows, (ordersJoin (.column none "id") (some (exceeds "amount")) none).execute
        (hundredMeaning _ displayed) (.snapshot [smallCustomer]) 0 [smallOrder] = .ok rows ∧
      rows.length = 1 ∧
      ((ordersJoin (.column none "id") (some (exceeds "amount")) none).rows
        (hundredMeaning _ displayed) [smallCustomer] [smallOrder]).length = 0) ∧
    (∃ rows, (ordersJoin (.column none "id") none (some (exceeds "score"))).execute
        (hundredMeaning _ displayed)
        (.onDemand [⟨"id", .int64⟩] .answering [⟨smallCustomer, true⟩]) 0 [smallOrder] = .ok rows ∧
      rows.length = 1 ∧
      ((ordersJoin (.column none "id") none (some (exceeds "score"))).rows
        (hundredMeaning _ displayed) [smallCustomer] [smallOrder]).length = 0) ∧
    (ordersJoin (.column (some "customers") "id") none none).execute
      (hundredMeaning _ displayed) (.snapshot [smallCustomer]) 0 [smallOrder] =
        .error "lookup key column 'customers.id' not found in lookup table schema" := by
  refine ⟨⟨_, rfl, rfl, ?_⟩, ⟨_, rfl, rfl, ?_⟩, ⟨_, rfl, rfl, ?_⟩, rfl⟩ <;> decide +kernel

end LookupQuery

end LaminarDB.Sql.Lookup
