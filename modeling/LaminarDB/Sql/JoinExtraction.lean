import LaminarDB.Sql.JoinClauses

/-!
# Extraction of join conditions

The predicate that the engine evaluates for a detected join, compared with the clause that
was written. They agree on all pairs of rows if the clause is one that the analysis represents.
-/

namespace LaminarDB.Sql

open List

/-- A join that one of the three functions accepts, with the predicate it is run with. -/
structure AcceptedJoin where
  join : Join
  analysis : JoinAnalysis
  predicate : PairPredicate

def Detected.accepted {Config : Type} (predicate : Config → PairPredicate)
    (detected : Detected Config) : AcceptedJoin :=
  ⟨detected.join, detected.analysis, predicate detected.config⟩

/-- The joins that `detect_stream_join_query`, `detect_asof_query` and
`detect_temporal_query` accept. -/
def accepted (select : Select) : List AcceptedJoin :=
  ((detectStreamJoinQuery select).map (Detected.accepted StreamJoinConfig.predicate)).toList ++
    ((detectAsofQuery select).map (Detected.accepted AsofJoinConfig.predicate)).toList ++
    ((detectTemporalQuery select).map (Detected.accepted TemporalJoinConfig.predicate)).toList

namespace AcceptedJoin

variable (accepted : AcceptedJoin) (unqualified : String → Option Side)

def scope : Scope where
  left := ⟨accepted.analysis.leftTable, accepted.analysis.leftAlias⟩
  right := ⟨accepted.analysis.rightTable, accepted.analysis.rightAlias⟩
  unqualified := unqualified

def Satisfied (truth : Expr → Prop) (pair : RowPair) : Prop :=
  accepted.join.operator.Satisfied (accepted.scope unqualified) truth pair

/-- The clause has no `NOT BETWEEN`, and the engine pairs exactly the rows that satisfy it,
whatever the conjuncts mean that are not interpreted. -/
def Exact : Prop :=
  (∀ leaf ∈ accepted.join.operator.conjuncts, isNegatedBetween leaf = false) ∧
    ∀ truth pair, accepted.predicate.holds pair = true ↔ accepted.Satisfied unqualified truth pair

end AcceptedJoin

/-- The clause compares what the engine compares. -/
def Join.Written (scope : Scope) (join : Join) : Prop :=
  match join.operator with
  | .constrained _ constraint => ∃ key times, constraint.Written scope key times ∧
      ((extractTemporalVersion join.relation).isSome → times = none)
  | .asOf matchCondition constraint => ∃ name times direction tolerance,
      constraint.Written scope (name, name) none ∧
        WrittenMatch scope times direction matchCondition tolerance
  | .cross => False

def TableFactor.input (relation : TableFactor) : Input :=
  ⟨(extractTableName relation).toOption.getD "", extractTableAlias relation⟩

/-- The joins with their inputs, of which the left one is the right one of the join before. -/
def scopesFrom (unqualified : String → Option Side) (left : Input) :
    List Join → List (Join × Scope)
  | [] => []
  | join :: joins =>
    (join, ⟨left, join.relation.input, unqualified⟩) ::
      scopesFrom unqualified join.relation.input joins

def Select.Written (select : Select) (unqualified : String → Option Side) : Prop :=
  ∀ entry ∈ scopesFrom unqualified select.relation.input select.joins, entry.1.Written entry.2

variable {scope : Scope} {expr : Expr} {pair : RowPair}

/-- The analyses of one join, by its operator and the version of its table. -/
theorem analyzeStep_cases {left right : Input} {join : Join} {analysis : JoinAnalysis}
    (analyzed : analyzeStep left join = .ok (right, analysis)) :
    right = join.relation.input ∧
      ((∃ condition constraint found keys, join.operator = .asOf condition constraint ∧
          analyzeAsofMatchCondition condition = .ok found ∧
          analyzeAsofConstraint constraint = .ok keys ∧ analysis = .asof left right found keys) ∨
        ∃ joinType constraint found, join.operator = .constrained joinType constraint ∧
          analyzeJoinConstraint constraint = .ok found ∧
          ((∃ version, extractTemporalVersion join.relation = some version ∧
              analysis = .temporal left right joinType version found) ∨
            extractTemporalVersion join.relation = none ∧
              analysis = .regular left right joinType found)) := by
  unfold analyzeStep at analyzed
  cases isTable : extractTableName join.relation with
  | error error =>
    rw [isTable] at analyzed
    cases analyzed
  | ok table =>
    have isInput : (⟨table, extractTableAlias join.relation⟩ : Input) = join.relation.input := by
      rw [TableFactor.input, isTable]
      rfl
    simp only [isTable, bind, Except.bind, isInput] at analyzed
    cases isOperator : join.operator with
    | cross =>
      rw [isOperator] at analyzed
      cases analyzed
    | asOf condition constraint =>
      simp only [isOperator] at analyzed
      split at analyzed
      · cases analyzed
      · rename_i found isFound
        split at analyzed
        · cases analyzed
        · rename_i keys isKeys
          cases analyzed
          exact ⟨rfl, .inl ⟨_, _, found, keys, rfl, isFound, isKeys, rfl⟩⟩
    | constrained joinType constraint =>
      simp only [isOperator] at analyzed
      split at analyzed
      · cases analyzed
      · rename_i found isFound
        split at analyzed
        · rename_i version isVersion
          cases analyzed
          exact ⟨rfl, .inr ⟨_, _, found, rfl, isFound, .inl ⟨version, isVersion, rfl⟩⟩⟩
        · rename_i isVersion
          cases analyzed
          exact ⟨rfl, .inr ⟨_, _, found, rfl, isFound, .inr ⟨isVersion, rfl⟩⟩⟩

theorem analyzeSteps_scopes {unqualified : String → Option Side} {left : Input} {joins : List Join}
    {steps : List (Join × JoinAnalysis)} (analyzed : analyzeSteps left joins = .ok steps) :
    ∀ step ∈ steps, ∃ input, analyzeStep input step.1 = .ok (step.1.relation.input, step.2) ∧
      (step.1, ⟨input, step.1.relation.input, unqualified⟩) ∈
        scopesFrom unqualified left joins := by
  induction joins generalizing left steps with
  | nil =>
    cases analyzed
    exact forall_mem_nil _
  | cons join joins ih =>
    simp only [analyzeSteps, bind, Except.bind] at analyzed
    split at analyzed
    · cases analyzed
    · rename_i first isFirst
      obtain ⟨right, analysis⟩ := first
      split at analyzed
      · cases analyzed
      · rename_i rest isRest
        cases analyzed
        obtain ⟨rfl, _⟩ := analyzeStep_cases isFirst
        refine forall_mem_cons.mpr ⟨⟨left, isFirst, mem_cons_self⟩, fun step isStep => ?_⟩
        obtain ⟨input, isAnalyzed, isScope⟩ := ih isRest step isStep
        exact ⟨input, isAnalyzed, mem_cons_of_mem _ isScope⟩

/-- A join that is found is one of the joins, with the analysis of its step. -/
theorem findJoin_scopes {select : Select} {accepts : JoinAnalysis → Bool} {join : Join}
    {analysis : JoinAnalysis} (unqualified : String → Option Side)
    (found : findJoin select accepts = some (join, analysis)) :
    accepts analysis = true ∧ ∃ input,
      analyzeStep input join = .ok (join.relation.input, analysis) ∧
        (join, ⟨input, join.relation.input, unqualified⟩) ∈
          scopesFrom unqualified select.relation.input select.joins := by
  unfold findJoin at found
  split at found
  · cases found
  · rename_i steps analyzed
    have isAccepted := find?_some found
    refine ⟨isAccepted, ?_⟩
    have isStep := mem_of_find?_eq_some found
    simp only [analyzeJoins] at analyzed
    split at analyzed
    · cases analyzed
      cases isStep
    · simp only [bind, Except.bind] at analyzed
      split at analyzed
      · cases analyzed
      · rename_i table isTable
        have isInput : (⟨table, extractTableAlias select.relation⟩ : Input) =
            select.relation.input := by
          rw [TableFactor.input, isTable]
          rfl
        rw [isInput] at analyzed
        exact analyzeSteps_scopes analyzed _ isStep
/-- The predicate that the engine evaluates, if one of the three functions accepts the analysis. -/
def JoinAnalysis.predicate? (analysis : JoinAnalysis) : Option PairPredicate :=
  match JoinOperatorConfig.fromAnalysis analysis with
  | .streamStream config =>
    if config.leftTimeColumn = "" ∨ config.rightTimeColumn = "" then none
    else some config.predicate
  | .lookup => none
  | .asof config => some config.predicate
  | .temporal config => some config.predicate

theorem accepted_scopes {select : Select} {accepted : AcceptedJoin}
    (unqualified : String → Option Side) (isAccepted : accepted ∈ Sql.accepted select) :
    accepted.analysis.predicate? = some accepted.predicate ∧ ∃ input,
      analyzeStep input accepted.join =
          .ok (accepted.join.relation.input, accepted.analysis) ∧
        (accepted.join, ⟨input, accepted.join.relation.input, unqualified⟩) ∈
          scopesFrom unqualified select.relation.input select.joins := by
  simp only [Sql.accepted, mem_append, Option.mem_toList, Option.map_eq_some_iff,
    detectStreamJoinQuery, detectAsofQuery, detectTemporalQuery, Option.bind_eq_some_iff]
    at isAccepted
  rcases isAccepted with (⟨detected, ⟨⟨join, analysis⟩, isFound, isDetected⟩, rfl⟩ |
    ⟨detected, ⟨⟨join, analysis⟩, isFound, isDetected⟩, rfl⟩) |
    ⟨detected, ⟨⟨join, analysis⟩, isFound, isDetected⟩, rfl⟩
  · dsimp only at isDetected
    split at isDetected
    · rename_i config isConfig
      split at isDetected
      · cases isDetected
      · rename_i hasTimes
        split at isDetected
        · cases isDetected
          refine ⟨?_, (findJoin_scopes unqualified isFound).2⟩
          simp only [JoinAnalysis.predicate?, Detected.accepted, isConfig, if_neg hasTimes]
        · cases isDetected
    · cases isDetected
  all_goals
    dsimp only at isDetected
    split at isDetected
    · rename_i config isConfig
      cases isDetected
      refine ⟨?_, (findJoin_scopes unqualified isFound).2⟩
      simp only [JoinAnalysis.predicate?, Detected.accepted, isConfig]
    · cases isDetected

theorem PairPredicate.holds_iff {predicate : PairPredicate} :
    predicate.holds pair = true ↔
      SameValue pair ⟨.left, predicate.leftKey⟩ ⟨.right, predicate.rightKey⟩ ∧
        ∀ window ∈ predicate.window, window.holds pair = true := by
  rw [PairPredicate.holds, Bool.and_eq_true, decide_eq_true_iff, Option.all_eq_true]
  rfl

theorem sameValue_window {times : String × String} :
    TimeWindow.holds ⟨times.1, times.2, some 0, some 0⟩ pair = true ↔
      SameValue pair ⟨.left, times.1⟩ ⟨.right, times.2⟩ := by
  simp only [TimeWindow.holds, SameValue]
  rcases pair ⟨.left, times.1⟩ with _ | left <;> rcases pair ⟨.right, times.2⟩ with _ | right <;>
    simp
  omega

namespace AcceptedJoin

variable {join : Join} {unqualified : String → Option Side} {input : Input}
  {predicate : PairPredicate} {constraint : JoinConstraint} {joinType : JoinType}

theorem exact_asof {condition : Expr} {found : MatchAnalysis} {keys : String × String}
    (isOperator : join.operator = .asOf condition constraint)
    (isFound : analyzeAsofMatchCondition condition = .ok found)
    (areKeys : analyzeAsofConstraint constraint = .ok keys)
    (isPredicate : (JoinAnalysis.asof input join.relation.input found keys).predicate? =
      some predicate)
    (written : join.Written ⟨input, join.relation.input, unqualified⟩) :
    Exact ⟨join, .asof input join.relation.input found keys, predicate⟩ unqualified := by
  simp only [Join.Written, isOperator] at written
  obtain ⟨name, times, direction, tolerance, isConstraint, isMatch⟩ := written
  obtain ⟨isAnalysis, notNegated, satisfied⟩ := analyzeAsofMatchCondition_written isMatch
  cases isAnalysis.symm.trans isFound
  cases (analyzeAsofConstraint_written isConstraint).symm.trans areKeys
  obtain rfl : ⟨name, name, some (direction.window times tolerance)⟩ = predicate :=
    Option.some.inj isPredicate
  refine ⟨?_, fun truth pair => ?_⟩
  · simp only [isOperator, JoinOperator.conjuncts]
    exact forall_mem_append.mpr ⟨notNegated, isConstraint.notNegated⟩
  · simp only [AcceptedJoin.Satisfied, isOperator, JoinOperator.Satisfied]
    refine PairPredicate.holds_iff.trans (Iff.trans ?_
      (and_congr (satisfied truth pair) isConstraint.satisfied_iff).symm)
    simp [and_comm]

variable {found : ConstraintAnalysis}

theorem exact_temporal {version : String}
    (isOperator : join.operator = .constrained joinType constraint)
    (isFound : analyzeJoinConstraint constraint = .ok found)
    (isVersion : extractTemporalVersion join.relation = some version)
    (isPredicate : (JoinAnalysis.temporal input join.relation.input joinType version
      found).predicate? = some predicate)
    (written : join.Written ⟨input, join.relation.input, unqualified⟩) :
    Exact ⟨join, .temporal input join.relation.input joinType version found, predicate⟩
      unqualified := by
  simp only [Join.Written, isOperator, isVersion] at written
  obtain ⟨key, times, isConstraint, noTimes⟩ := written
  obtain rfl := noTimes rfl
  obtain ⟨leftKey, rightKey, _, _⟩ := analyzeJoinConstraint_reads isConstraint isFound
  obtain rfl : ⟨found.leftKey, found.rightKey, none⟩ = predicate := Option.some.inj isPredicate
  refine ⟨?_, fun truth pair => ?_⟩
  · simp only [isOperator, JoinOperator.conjuncts]
    exact isConstraint.notNegated
  · simp only [AcceptedJoin.Satisfied, isOperator, JoinOperator.Satisfied]
    refine PairPredicate.holds_iff.trans (Iff.trans ?_ isConstraint.satisfied_iff.symm)
    simp [leftKey, rightKey]

/-- An interval join is detected only with a bound and time columns, which are those of the
`BETWEEN`. -/
theorem exact_regular
    (isOperator : join.operator = .constrained joinType constraint)
    (isFound : analyzeJoinConstraint constraint = .ok found)
    (isPredicate : (JoinAnalysis.regular input join.relation.input joinType found).predicate? =
      some predicate)
    (written : join.Written ⟨input, join.relation.input, unqualified⟩) :
    Exact ⟨join, .regular input join.relation.input joinType found, predicate⟩ unqualified := by
  simp only [Join.Written, isOperator] at written
  obtain ⟨key, times, isConstraint, _⟩ := written
  obtain ⟨leftKey, rightKey, isZero, areColumns⟩ := analyzeJoinConstraint_reads isConstraint isFound
  obtain ⟨foundLeft, foundRight, additional, timeBound, timeCols⟩ := found
  cases timeBound with
  | none => cases isPredicate
  | some bound =>
    obtain ⟨rfl, leaf, isConjunct, columns, isColumns, isInstant⟩ := isZero bound rfl
    cases timeCols with
    | none => simp [JoinAnalysis.predicate?, JoinOperatorConfig.fromAnalysis, JoinAnalysis.regular,
        JoinAnalysis.lookup] at isPredicate
    | some raw =>
      obtain ⟨_, isTimes, resolved⟩ := areColumns raw rfl
      cases isColumns.symm.trans isTimes
      have isWindow : predicate = ⟨foundLeft, foundRight,
          some ⟨columns.1, columns.2, some 0, some 0⟩⟩ := by
        rw [← resolved]
        simp only [JoinAnalysis.predicate?] at isPredicate
        exact (Option.some.inj (Option.ite_none_left_eq_some.mp isPredicate).2).symm
      refine ⟨?_, fun truth pair => ?_⟩
      · simp only [isOperator, JoinOperator.conjuncts]
        exact isConstraint.notNegated
      · simp only [AcceptedJoin.Satisfied, isOperator, JoinOperator.Satisfied]
        refine PairPredicate.holds_iff.trans (Iff.trans ?_ isConstraint.satisfied_iff.symm)
        rw [isWindow, ← leftKey, ← rightKey]
        refine and_congr_right fun _ => ⟨fun holds other _ times isTimes _ => ?_, fun same => ?_⟩
        · cases isColumns.symm.trans isTimes
          exact sameValue_window.mp (holds _ rfl)
        · intro window isWindow
          cases isWindow
          exact sameValue_window.mpr (same leaf isConjunct columns isColumns isInstant)

theorem exact_of_step {analysis : JoinAnalysis}
    (analyzed : analyzeStep input join = .ok (join.relation.input, analysis))
    (isPredicate : analysis.predicate? = some predicate)
    (written : join.Written ⟨input, join.relation.input, unqualified⟩) :
    Exact ⟨join, analysis, predicate⟩ unqualified := by
  rcases (analyzeStep_cases analyzed).2 with ⟨_, _, _, _, isOperator, isFound, areKeys, rfl⟩ |
    ⟨_, _, _, isOperator, isFound, ⟨_, isVersion, rfl⟩ | ⟨_, rfl⟩⟩
  · exact exact_asof isOperator isFound areKeys isPredicate written
  · exact exact_temporal isOperator isFound isVersion isPredicate written
  · exact exact_regular isOperator isFound isPredicate written

end AcceptedJoin

/-- `FROM trades t ASOF JOIN quotes q MATCH_CONDITION(...) ON t.symbol = q.<key>`. -/
def quotesJoin (key : String) (matchCondition : Expr) : Select where
  relation := .table "trades" (some "t") none
  joins := [⟨.table "quotes" (some "q") none, .asOf matchCondition
    (.on (.binary (.compound ["t", "symbol"]) .eq (.compound ["q", key])))⟩]

def quotedBefore : Expr := .binary (.compound ["t", "ts"]) .gtEq (.compound ["q", "ts"])

/-- `t.ts - q.ts <= INTERVAL '5' SECOND`. -/
def quotedWithin : Expr :=
  .binary (.binary (.compound ["t", "ts"]) .minus (.compound ["q", "ts"])) .ltEq
    (.interval ⟨[(5, none)], some .second⟩)

/-- `FROM orders o JOIN payments p ON ...`. -/
def ordersJoin (condition : Expr) : Select where
  relation := .table "orders" (some "o") none
  joins := [⟨.table "payments" (some "p") none, .constrained .inner (.on condition)⟩]

def sameOrder : Expr := .binary (.compound ["o", "id"]) .eq (.compound ["p", "order_id"])

/-- `p.ts [NOT] BETWEEN o.ts AND o.ts + INTERVAL '<seconds>' SECOND`. -/
def paidWithin (seconds : Nat) (negated : Bool) : Expr :=
  .between (.compound ["p", "ts"]) (.compound ["o", "ts"])
    (.binary (.compound ["o", "ts"]) .plus (.interval ⟨[(seconds, none)], some .second⟩)) negated

def pairOf (left right : List (String × Int)) : RowPair
  | ⟨.left, name⟩ => left.lookup name
  | ⟨.right, name⟩ => right.lookup name

/-- Whether a clause is satisfied, if all its conjuncts are interpreted. -/
def decided (scope : Scope) (inMatch : Bool) (pair : RowPair) (expr : Expr) : Option Bool :=
  if (conjuncts expr).all (interpreted scope inMatch) then
    some ((conjuncts expr).all (leafHolds scope pair))
  else none

def JoinOperator.decided (scope : Scope) (pair : RowPair) : JoinOperator → Option Bool
  | .constrained _ (.on condition) => Sql.decided scope false pair condition
  | .asOf matchCondition (.on condition) => do
      return (← Sql.decided scope true pair matchCondition) &&
        (← Sql.decided scope false pair condition)
  | _ => none

theorem satisfied_of_decided {inMatch holds : Bool} (truth : Expr → Prop)
    (isDecided : decided scope inMatch pair expr = some holds) :
    Satisfied scope inMatch truth pair expr ↔ holds = true := by
  obtain ⟨areInterpreted, isHolds⟩ := Option.ite_none_right_eq_some.mp isDecided
  obtain rfl := Option.some.inj isHolds
  rw [all_eq_true] at areInterpreted ⊢
  refine forall₂_congr fun leaf isConjunct => ?_
  rw [if_pos (areInterpreted leaf isConjunct)]

theorem JoinOperator.satisfied_of_decided {operator : JoinOperator} {holds : Bool}
    (truth : Expr → Prop) (isDecided : operator.decided scope pair = some holds) :
    operator.Satisfied scope truth pair ↔ holds = true := by
  unfold JoinOperator.decided at isDecided
  split at isDecided
  · exact Sql.satisfied_of_decided truth isDecided
  · obtain ⟨first, isFirst, rest⟩ := Option.bind_eq_some_iff.mp isDecided
    obtain ⟨second, isSecond, both⟩ := Option.bind_eq_some_iff.mp rest
    obtain rfl := Option.some.inj both
    rw [Bool.and_eq_true]
    exact and_congr (Sql.satisfied_of_decided truth isFirst)
      (Sql.satisfied_of_decided truth isSecond)
  · cases isDecided

/-- An accepted join whose predicate and clause differ on a pair of rows. -/
def Differs (select : Select) (pair : RowPair) : Prop :=
  ∃ join ∈ accepted select, ∀ truth,
    ¬ (join.predicate.holds pair = true ↔ join.Satisfied (fun _ => none) truth pair)

def checkDiffers (select : Select) (pair : RowPair) : Bool :=
  (accepted select).any fun join =>
    (join.join.operator.decided (join.scope fun _ => none) pair).any fun holds =>
      join.predicate.holds pair != holds

theorem differs_of_check {select : Select}
    (checked : checkDiffers select pair = true) : Differs select pair := by
  obtain ⟨join, isAccepted, checked⟩ := any_eq_true.mp checked
  cases isDecided : join.join.operator.decided (join.scope fun _ => none) pair with
  | none =>
    rw [isDecided] at checked
    cases checked
  | some holds =>
    rw [isDecided] at checked
    refine ⟨join, isAccepted, fun truth agree => ?_⟩
    rw [AcceptedJoin.Satisfied, JoinOperator.satisfied_of_decided truth isDecided] at agree
    exact bne_iff_ne.mp checked (Bool.eq_iff_iff.mpr agree)

end LaminarDB.Sql
