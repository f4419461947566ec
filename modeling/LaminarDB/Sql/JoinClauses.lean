import LaminarDB.Sql.JoinMeaning

/-!
# Clauses that the analysis represents

The clauses that compare one pair of keys, each from its own input, and the times as the engine
does: an interval join has only the symmetric bound, so its interval must be zero; an ASOF join has
one side of its tolerance. `analyze_on_expression` and `analyze_asof_match_condition` find in them
what they say.
-/

namespace LaminarDB.Sql

open List

def columnParts : Expr → Option (List String)
  | .identifier name => some [name]
  | .compound parts => some parts
  | _ => none

/-- The expression is a reference to the column. -/
def Scope.Refers (scope : Scope) (column : Column) (expr : Expr) : Prop :=
  (columnParts expr).bind scope.column = some column

instance {scope : Scope} {column : Column} {expr : Expr} : Decidable (scope.Refers column expr) :=
  inferInstanceAs (Decidable (_ = _))

/-- One number, whose unit stands after the text. -/
def Interval.Plain (literal : Interval) (millis : Nat) : Prop :=
  ∃ value, literal.terms = [(value, none)] ∧ value * 86400 < u64Size ∧
    literal.duration = some millis

/-- `left = right`. -/
def IsKey (scope : Scope) (key : String × String) (leaf : Expr) : Prop :=
  ∃ left right, leaf = .binary left .eq right ∧ scope.Refers ⟨.left, key.1⟩ left ∧
    scope.Refers ⟨.right, key.2⟩ right

/-- `right BETWEEN left AND left + INTERVAL` of length zero, about the time columns. -/
def IsInstant (scope : Scope) (times : String × String) (leaf : Expr) : Prop :=
  ∃ expr low base literal,
    leaf = .between expr low (.binary base .plus (.interval literal)) false ∧ literal.Plain 0 ∧
      scope.Refers ⟨.right, times.2⟩ expr ∧ scope.Refers ⟨.left, times.1⟩ low ∧
        scope.Refers ⟨.left, times.1⟩ base

def OnLeaf (scope : Scope) (key : String × String) (times : Option (String × String))
    (leaf : Expr) : Prop :=
  IsKey scope key leaf ∨ ∃ columns ∈ times, IsInstant scope columns leaf

/-- Conjuncts, without parentheses. -/
inductive AndTree (isLeaf : Expr → Prop) : Expr → Prop where
  | leaf {expr} : isLeaf expr → AndTree isLeaf expr
  | and {left right} : AndTree isLeaf left → AndTree isLeaf right →
      AndTree isLeaf (.binary left .and right)

/-- The constraint compares the key, and the times if there are any. -/
def JoinConstraint.Written (scope : Scope) (key : String × String)
    (times : Option (String × String)) : JoinConstraint → Prop
  | .on condition =>
    AndTree (OnLeaf scope key times) condition ∧
      ∃ leaf ∈ Sql.conjuncts condition, IsKey scope key leaf
  | .using_ names => names ≠ [] ∧ ∀ name ∈ names, name = key.1 ∧ name = key.2
  | _ => False

/-- The comparison that gives the direction of an ASOF join. -/
def IsOrder (scope : Scope) (times : String × String) (leaf : Expr) : AsofDirection → Prop
  | .backward => ∃ left right, leaf = .binary left .gtEq right ∧
      scope.Refers ⟨.left, times.1⟩ left ∧ scope.Refers ⟨.right, times.2⟩ right
  | .forward => ∃ left right, leaf = .binary left .ltEq right ∧
      scope.Refers ⟨.left, times.1⟩ left ∧ scope.Refers ⟨.right, times.2⟩ right
  | .nearest => ∃ name left right, leaf = .function name (some [.column left, .column right]) ∧
      name.toUpper = "NEAREST" ∧ scope.column left = some ⟨.left, times.1⟩ ∧
        scope.column right = some ⟨.right, times.2⟩

/-- A number of milliseconds, or an interval. -/
def IsLimit (tolerance : Nat) (limit : Expr) : Prop :=
  limit = .number tolerance ∧ tolerance < u64Size ∨
    ∃ literal, limit = .interval literal ∧ literal.Plain tolerance

/-- `later - earlier <= tolerance`, where the right time is earlier in a backward join. -/
def IsTolerance (scope : Scope) (times : String × String) (tolerance : Nat) (leaf : Expr) :
    AsofDirection → Prop
  | .nearest => False
  | direction => ∃ later earlier limit,
      leaf = .binary (.binary later .minus earlier) .ltEq limit ∧ IsLimit tolerance limit ∧
        if direction = .backward then
          scope.Refers ⟨.left, times.1⟩ later ∧ scope.Refers ⟨.right, times.2⟩ earlier
        else scope.Refers ⟨.right, times.2⟩ later ∧ scope.Refers ⟨.left, times.1⟩ earlier

def WrittenMatch (scope : Scope) (times : String × String) (direction : AsofDirection)
    (condition : Expr) : Option Nat → Prop
  | none => IsOrder scope times condition direction
  | some tolerance => ∃ first second, condition = .binary first .and second ∧
      (IsOrder scope times first direction ∧ IsTolerance scope times tolerance second direction ∨
        IsTolerance scope times tolerance first direction ∧ IsOrder scope times second direction)

variable {scope : Scope} {column : Column} {expr leaf : Expr} {pair : RowPair}

theorem Scope.name_of_column {parts : List String} (isColumn : scope.column parts = some column) :
    parts.getLast? = some column.name := by
  match parts with
  | [] => cases isColumn
  | [name] | [qualifier, name] =>
    obtain ⟨side, _, rfl⟩ := Option.map_eq_some_iff.mp isColumn
    rfl
  | first :: second :: third :: parts =>
    obtain ⟨side, _, rfl⟩ := Option.map_eq_some_iff.mp isColumn
    rw [getLast?_eq_some_getLast (cons_ne_nil _ _)]
    rfl

namespace Scope.Refers

variable (refers : scope.Refers column expr)

include refers

theorem cases : (∃ name, expr = .identifier name ∧ scope.column [name] = some column) ∨
    ∃ parts, expr = .compound parts ∧ scope.column parts = some column := by
  cases expr with
  | identifier name => exact .inl ⟨name, rfl, refers⟩
  | compound parts => exact .inr ⟨parts, rfl, refers⟩
  | _ => cases refers

theorem extractColumnRef_eq : extractColumnRef expr = some column.name := by
  rcases refers.cases with ⟨name, rfl, isColumn⟩ | ⟨parts, rfl, isColumn⟩
  · exact Scope.name_of_column isColumn
  · exact Scope.name_of_column isColumn

theorem isSum_eq : isSum scope expr = true := by
  rcases refers.cases with ⟨name, rfl, isColumn⟩ | ⟨parts, rfl, isColumn⟩ <;>
    simp only [isSum, isColumn, Option.isSome_some]

theorem evaluate_eq : evaluate scope pair expr = pair column := by
  rcases refers.cases with ⟨name, rfl, isColumn⟩ | ⟨parts, rfl, isColumn⟩ <;>
    simp only [evaluate, isColumn, Option.bind_some]

theorem extractQualified : ∃ qualifier,
    extractQualifiedColumnRef expr = some (qualifier, column.name) ∧
      ∀ name ∈ qualifier, scope.sideOf name = some column.side := by
  rcases refers.cases with ⟨name, rfl, isColumn⟩ | ⟨parts, rfl, isColumn⟩
  · obtain ⟨side, _, rfl⟩ := Option.map_eq_some_iff.mp isColumn
    exact ⟨none, rfl, nofun⟩
  · have isLast := Scope.name_of_column isColumn
    match parts with
    | [] => cases isColumn
    | [qualifier, name] =>
      obtain ⟨side, isSide, rfl⟩ := Option.map_eq_some_iff.mp isColumn
      refine ⟨some qualifier, rfl, ?_⟩
      intro other isOther
      cases isOther
      exact isSide
    | [name] => exact ⟨none, congrArg (Option.map _) isLast, nofun⟩
    | first :: second :: third :: parts => exact ⟨none, congrArg (Option.map _) isLast, nofun⟩

end Scope.Refers

theorem Interval.Plain.parse {literal : Interval} {millis : Nat} (plain : literal.Plain millis) :
    parseIntervalToDuration literal = .ok millis := by
  obtain ⟨value, isTerm, small, isDuration⟩ := plain
  obtain ⟨terms, leadingField⟩ := literal
  obtain rfl : terms = _ := isTerm
  have inRange : value < u64Size := by unfold u64Size at small ⊢; omega
  simp only [parseIntervalToDuration, extractIntervalValue, parseU64, if_pos inRange]
  simp only [Interval.duration, termsMillis, isEmpty_cons, Bool.false_eq_true, if_false,
    Option.none_or] at isDuration
  generalize leadingField.getD .second = field at isDuration ⊢
  cases field with
  | other name => cases isDuration
  | millisecond | second | minute | hour | day =>
    obtain rfl := Option.some.inj isDuration
    simp only [u64Size] at small ⊢
    refine congrArg Except.ok ?_
    omega

/-- What is said when one value is at most, and at least, the other. -/
theorem sameValue_iff {first second : Column} {one two : Expr}
    (isOne : evaluate scope pair one = pair first) (isTwo : evaluate scope pair two = pair second) :
    (atMost scope pair one two 0 && atMost scope pair two one 0) = true ↔
      SameValue pair first second := by
  simp only [atMost, isOne, isTwo, SameValue]
  rcases pair first with _ | low <;> rcases pair second with _ | high <;>
    simp
  omega

theorem IsKey.holds_iff {key : String × String} (isKey : IsKey scope key leaf) :
    leafHolds scope pair leaf = true ↔ SameValue pair ⟨.left, key.1⟩ ⟨.right, key.2⟩ := by
  obtain ⟨left, right, rfl, isLeft, isRight⟩ := isKey
  exact sameValue_iff isLeft.evaluate_eq isRight.evaluate_eq

theorem IsInstant.holds_iff {times : String × String} (isInstant : IsInstant scope times leaf) :
    leafHolds scope pair leaf = true ↔ SameValue pair ⟨.left, times.1⟩ ⟨.right, times.2⟩ := by
  obtain ⟨expr, low, base, literal, rfl, ⟨_, _, _, isDuration⟩, isExpr, isLow, isBase⟩ := isInstant
  have isHigh : evaluate scope pair (.binary base .plus (.interval literal)) =
      pair ⟨.left, times.1⟩ := by
    simp only [evaluate, isDuration, isBase.evaluate_eq]
    cases pair ⟨.left, times.1⟩ <;> simp
  rw [← sameValue_iff isLow.evaluate_eq isExpr.evaluate_eq]
  simp only [leafHolds, atMost, isHigh, isLow.evaluate_eq]

theorem IsKey.interpreted_eq {key : String × String} (isKey : IsKey scope key leaf) :
    interpreted scope false leaf = true := by
  obtain ⟨left, right, rfl, isLeft, isRight⟩ := isKey
  simp [interpreted, isLeft.isSum_eq, isRight.isSum_eq]

theorem IsInstant.interpreted_eq {times : String × String}
    (isInstant : IsInstant scope times leaf) : interpreted scope false leaf = true := by
  obtain ⟨expr, low, base, literal, rfl, ⟨_, _, _, isDuration⟩, isExpr, isLow, isBase⟩ := isInstant
  simp [interpreted, isSum, isExpr.isSum_eq, isLow.isSum_eq, isBase.isSum_eq, isDuration]

/-! ## The analysis of `ON` -/

theorem Scope.notLeft_of_sideOf {qualifier : String}
    (isRight : scope.sideOf qualifier = some .right) :
    matchesTable scope.left.table scope.left.aliasName (some qualifier) = false := by
  unfold Scope.sideOf at isRight
  split at isRight
  · cases isRight
  · rename_i notLeft _
    exact notLeft
  · cases isRight

def Scope.resolve (scope : Scope) (raw : RawTimeCols) : String × String :=
  resolveTimeCols raw scope.left.table scope.right.table scope.left.aliasName
    scope.right.aliasName

/-- `resolve_time_cols` gives the columns of the inputs that they were written for. -/
theorem IsInstant.resolved {times : String × String} {expr low base : Expr} {literal : Interval}
    (isInstant : IsInstant scope times
      (.between expr low (.binary base .plus (.interval literal)) false)) :
    ∃ raw, betweenTimeCols expr low = some raw ∧ scope.resolve raw = times := by
  obtain ⟨_, _, _, _, same, _, isExpr, isLow, _⟩ := isInstant
  cases same
  obtain ⟨exprQualifier, isExpr, exprSide⟩ := isExpr.extractQualified
  obtain ⟨lowQualifier, isLow, _⟩ := isLow.extractQualified
  refine ⟨⟨exprQualifier, times.2, lowQualifier, times.1⟩, ?_, ?_⟩
  · simp only [betweenTimeCols, isExpr, isLow]
  · have notLeft : matchesTable scope.left.table scope.left.aliasName exprQualifier = false := by
      cases exprQualifier with
      | none => rfl
      | some name => exact scope.notLeft_of_sideOf (exprSide name rfl)
    simp [Scope.resolve, resolveTimeCols, notLeft]

/-- What is found in a clause that compares keys and times only. -/
structure Reads (scope : Scope) (key : String × String) (times : Option (String × String))
    (expr : Expr) (analysis : OnAnalysis) : Prop where
  keys : ∀ pair ∈ analysis.keyPairs, pair = key
  hasKey : (∃ leaf ∈ conjuncts expr, IsKey scope key leaf) → analysis.keyPairs ≠ []
  bound : ∀ bound ∈ analysis.timeBound, bound = 0 ∧
    ∃ leaf ∈ conjuncts expr, ∃ columns ∈ times, IsInstant scope columns leaf
  columns : ∀ raw ∈ analysis.timeCols, ∃ columns ∈ times, scope.resolve raw = columns

variable {key : String × String} {times : Option (String × String)}

theorem Reads.merge {left right : Expr} {leftResult rightResult : OnAnalysis}
    (isLeft : Reads scope key times left leftResult)
    (isRight : Reads scope key times right rightResult) :
    Reads scope key times (.binary left .and right) (leftResult.merge rightResult) where
  keys pair isPair := (mem_append.mp isPair).elim (isLeft.keys pair) (isRight.keys pair)
  hasKey := by
    rintro ⟨leaf, isConjunct, isKey⟩ noKeys
    obtain ⟨leftNone, rightNone⟩ := append_eq_nil_iff.mp noKeys
    rcases mem_append.mp isConjunct with inLeft | inRight
    · exact isLeft.hasKey ⟨leaf, inLeft, isKey⟩ leftNone
    · exact isRight.hasKey ⟨leaf, inRight, isKey⟩ rightNone
  bound bound isBound := by
    rcases Option.or_eq_some_iff.mp isBound with inLeft | ⟨_, inRight⟩
    · obtain ⟨isZero, leaf, isConjunct, found⟩ := isLeft.bound bound inLeft
      exact ⟨isZero, leaf, mem_append_left _ isConjunct, found⟩
    · obtain ⟨isZero, leaf, isConjunct, found⟩ := isRight.bound bound inRight
      exact ⟨isZero, leaf, mem_append_right _ isConjunct, found⟩
  columns raw isRaw :=
    (Option.or_eq_some_iff.mp isRaw).elim (isLeft.columns raw) fun both =>
      isRight.columns raw both.2

theorem reads_leaf (isLeaf : OnLeaf scope key times leaf) :
    ∃ analysis, analyzeOnExpression leaf = .ok analysis ∧ Reads scope key times leaf analysis := by
  rcases isLeaf with isKey | ⟨columns, isColumns, isInstant⟩
  · obtain ⟨left, right, rfl, isLeft, isRight⟩ := isKey
    refine ⟨⟨[key], none, none⟩, ?_, fun pair => mem_singleton.mp, fun _ => cons_ne_nil _ _, nofun,
      nofun⟩
    simp only [analyzeOnExpression, isLeft.extractColumnRef_eq, isRight.extractColumnRef_eq]
  · have written := isInstant
    obtain ⟨expr, low, base, literal, rfl, plain, _⟩ := isInstant
    obtain ⟨raw, isRaw, resolved⟩ := written.resolved
    refine ⟨⟨[], some 0, some raw⟩, ?_, nofun, ?_, ?_, ?_⟩
    · simp only [analyzeOnExpression, extractTimeBound, plain.parse, isRaw, Except.toOption]
    · rintro ⟨leaf, isConjunct, left, right, isKey, _⟩
      cases (mem_singleton.mp isConjunct).symm.trans isKey
    · intro bound isBound
      cases isBound
      exact ⟨rfl, _, mem_singleton_self _, columns, isColumns, written⟩
    · intro other isOther
      cases isOther
      exact ⟨columns, isColumns, resolved⟩

theorem analyzeOnExpression_reads (tree : AndTree (OnLeaf scope key times) expr) :
    ∃ analysis, analyzeOnExpression expr = .ok analysis ∧ Reads scope key times expr analysis := by
  induction tree with
  | leaf isLeaf => exact reads_leaf isLeaf
  | and _ _ leftHypothesis rightHypothesis =>
    obtain ⟨leftResult, isLeft, leftReads⟩ := leftHypothesis
    obtain ⟨rightResult, isRight, rightReads⟩ := rightHypothesis
    refine ⟨leftResult.merge rightResult, ?_, leftReads.merge rightReads⟩
    simp only [analyzeOnExpression, isLeft, isRight]

theorem OnLeaf.single (isLeaf : OnLeaf scope key times leaf) :
    conjuncts leaf = [leaf] ∧ interpreted scope false leaf = true ∧
      isNegatedBetween leaf = false := by
  rcases isLeaf with isKey | ⟨columns, _, isInstant⟩
  · have isInterpreted := isKey.interpreted_eq
    obtain ⟨left, right, rfl, _⟩ := isKey
    exact ⟨rfl, isInterpreted, rfl⟩
  · have isInterpreted := isInstant.interpreted_eq
    obtain ⟨expr, low, base, literal, rfl, _⟩ := isInstant
    exact ⟨rfl, isInterpreted, rfl⟩

theorem AndTree.leaves (tree : AndTree (OnLeaf scope key times) expr) :
    ∀ leaf ∈ conjuncts expr, OnLeaf scope key times leaf := by
  induction tree with
  | leaf isLeaf =>
    rw [isLeaf.single.1]
    exact forall_mem_singleton.mpr isLeaf
  | and _ _ leftLeaves rightLeaves =>
    rw [conjuncts]
    exact forall_mem_append.mpr ⟨leftLeaves, rightLeaves⟩

theorem AndTree.satisfied_iff (tree : AndTree (OnLeaf scope key times) expr)
    {truth : Expr → Prop} :
    Satisfied scope false truth pair expr ↔
      ∀ leaf ∈ conjuncts expr, leafHolds scope pair leaf = true := by
  refine forall₂_congr fun leaf isConjunct => ?_
  rw [if_pos (tree.leaves leaf isConjunct).single.2.1]

theorem JoinConstraint.Written.notNegated {constraint : JoinConstraint}
    (written : constraint.Written scope key times) :
    ∀ leaf ∈ constraint.conjuncts, isNegatedBetween leaf = false := by
  cases constraint with
  | on condition => exact fun leaf isConjunct => (written.1.leaves leaf isConjunct).single.2.2
  | _ => exact forall_mem_nil _

/-- The constraint says that the keys are the same, and the times if it compares them. -/
theorem JoinConstraint.Written.satisfied_iff {constraint : JoinConstraint}
    (written : constraint.Written scope key times) {truth : Expr → Prop} :
    constraint.Satisfied scope truth pair ↔
      SameValue pair ⟨.left, key.1⟩ ⟨.right, key.2⟩ ∧
        ∀ leaf ∈ constraint.conjuncts, ∀ columns ∈ times, IsInstant scope columns leaf →
          SameValue pair ⟨.left, columns.1⟩ ⟨.right, columns.2⟩ := by
  cases constraint with
  | on condition =>
    obtain ⟨tree, keyLeaf, inClause, isKey⟩ := written
    refine tree.satisfied_iff.trans
      ⟨fun allHold => ⟨isKey.holds_iff.mp (allHold keyLeaf inClause), ?_⟩, ?_⟩
    · exact fun leaf isConjunct columns _ isInstant =>
        isInstant.holds_iff.mp (allHold leaf isConjunct)
    · intro ⟨sameKey, sameTimes⟩ leaf isConjunct
      rcases tree.leaves leaf isConjunct with isKey | ⟨columns, isColumns, isInstant⟩
      · exact isKey.holds_iff.mpr sameKey
      · exact isInstant.holds_iff.mpr (sameTimes leaf isConjunct columns isColumns isInstant)
  | using_ names =>
    obtain ⟨nonempty, areKeys⟩ := written
    obtain ⟨name, isName⟩ := exists_mem_of_ne_nil names nonempty
    constructor
    · intro same
      have sameKey := same name isName
      rw [(areKeys name isName).1] at sameKey
      rw [← (areKeys name isName).2, (areKeys name isName).1]
      exact ⟨sameKey, forall_mem_nil _⟩
    · intro ⟨sameKey, _⟩ other isOther
      rw [← (areKeys other isOther).1, ← (areKeys other isOther).2] at sameKey
      exact sameKey
  | _ => exact written.elim

/-- What `analyze_join_constraint` finds in a constraint that compares keys and times only. -/
structure ConstraintReads (scope : Scope) (key : String × String)
    (times : Option (String × String)) (constraint : JoinConstraint)
    (found : ConstraintAnalysis) : Prop where
  leftKey : found.leftKey = key.1
  rightKey : found.rightKey = key.2
  bound : ∀ bound ∈ found.timeBound, bound = 0 ∧
    ∃ leaf ∈ constraint.conjuncts, ∃ columns ∈ times, IsInstant scope columns leaf
  columns : ∀ raw ∈ found.timeCols, ∃ columns ∈ times, scope.resolve raw = columns

theorem analyzeJoinConstraint_reads {constraint : JoinConstraint} {found : ConstraintAnalysis}
    (written : constraint.Written scope key times)
    (isFound : analyzeJoinConstraint constraint = .ok found) :
    ConstraintReads scope key times constraint found := by
  cases constraint with
  | on condition =>
    obtain ⟨tree, hasKey⟩ := written
    obtain ⟨analysis, isAnalysis, reads⟩ := analyzeOnExpression_reads tree
    simp only [analyzeJoinConstraint, isAnalysis, Except.map] at isFound
    cases isPairs : analysis.keyPairs with
    | nil => exact absurd isPairs (reads.hasKey hasKey)
    | cons first additional =>
      have isKey := reads.keys first (isPairs ▸ mem_cons_self)
      rw [isPairs] at isFound
      cases isFound
      exact ⟨congrArg Prod.fst isKey, congrArg Prod.snd isKey, reads.bound, reads.columns⟩
  | using_ names =>
    cases names with
    | nil => exact absurd rfl written.1
    | cons name names =>
      cases isFound
      obtain ⟨isLeft, isRight⟩ := written.2 name mem_cons_self
      exact ⟨isLeft, isRight, nofun, nofun⟩
  | _ => exact written.elim

theorem extractEqualityColumns_tree (tree : AndTree (OnLeaf scope key none) expr) :
    extractEqualityColumns expr = .ok key := by
  induction tree with
  | leaf isLeaf =>
    rcases isLeaf with ⟨left, right, rfl, isLeft, isRight⟩ | ⟨_, isNone, _⟩
    · simp only [extractEqualityColumns, isLeft.extractColumnRef_eq, isRight.extractColumnRef_eq]
      rfl
    · cases isNone
  | and _ _ isLeft _ => simp only [extractEqualityColumns, isLeft]

theorem analyzeAsofConstraint_written {constraint : JoinConstraint}
    (written : constraint.Written scope key none) : analyzeAsofConstraint constraint = .ok key := by
  cases constraint with
  | on condition => exact extractEqualityColumns_tree written.1
  | using_ names =>
    cases names with
    | nil => exact absurd rfl written.1
    | cons name names =>
      obtain ⟨isLeft, isRight⟩ := written.2 name mem_cons_self
      exact congrArg Except.ok (Prod.ext isLeft isRight)
  | _ => exact written.elim

/-! ## The analysis of `MATCH_CONDITION` -/

section

variable {times : String × String} {direction : AsofDirection} {tolerance : Nat}

/-- What the comparison of an ASOF join is found to be, and what it says. -/
theorem IsOrder.spec (isOrder : IsOrder scope times leaf direction) :
    analyzeAsofDirection leaf = .ok (direction, times.1, times.2) ∧
      conjuncts leaf = [leaf] ∧ interpreted scope true leaf = true ∧
        isNegatedBetween leaf = false ∧
          analyzeAsofMatchCondition leaf = .ok ⟨direction, times.1, times.2, none⟩ := by
  cases direction with
  | backward | forward =>
    obtain ⟨left, right, rfl, isLeft, isRight⟩ := isOrder
    refine ⟨?_, rfl, ?_, rfl, ?_⟩
    · simp only [analyzeAsofDirection, isLeft.extractColumnRef_eq, isRight.extractColumnRef_eq]
      rfl
    · simp [interpreted, BinaryOperator.isOrder, isLeft.isSum_eq, isRight.isSum_eq]
    · simp only [analyzeAsofMatchCondition, analyzeAsofDirection, isLeft.extractColumnRef_eq,
        isRight.extractColumnRef_eq]
      rfl
  | nearest =>
    obtain ⟨name, left, right, rfl, isNearest, isLeft, isRight⟩ := isOrder
    have leftName := scope.name_of_column isLeft
    have rightName := scope.name_of_column isRight
    refine ⟨?_, rfl, ?_, rfl, ?_⟩
    · simp only [analyzeAsofDirection, isNearest, ne_eq, not_true, if_false,
        extractColumnFromFuncArg, leftName, rightName]
      rfl
    · simp [interpreted, isNearest, nearestColumns, isLeft, isRight]
    · simp only [analyzeAsofMatchCondition, analyzeAsofDirection, isNearest, ne_eq, not_true,
        if_false, extractColumnFromFuncArg, leftName, rightName]
      rfl

theorem IsOrder.holds_eq (isOrder : IsOrder scope times leaf direction) :
    leafHolds scope pair leaf = (direction.window times none).holds pair := by
  cases direction with
  | backward | forward =>
    obtain ⟨left, right, rfl, isLeft, isRight⟩ := isOrder
    simp only [leafHolds, atMost, isLeft.evaluate_eq, isRight.evaluate_eq, TimeWindow.holds,
      AsofDirection.window]
    rcases pair ⟨.left, times.1⟩ with _ | low <;> rcases pair ⟨.right, times.2⟩ with _ | high <;>
      simp
  | nearest =>
    obtain ⟨name, left, right, rfl, isNearest, isLeft, isRight⟩ := isOrder
    have isColumns : nearestColumns scope [.column left, .column right] =
        some (⟨.left, times.1⟩, ⟨.right, times.2⟩) := by
      simp only [nearestColumns, isLeft, isRight]
      rfl
    simp only [leafHolds, isColumns, Option.any_some, TimeWindow.holds, AsofDirection.window]
    rcases pair ⟨.left, times.1⟩ with _ | low <;> rcases pair ⟨.right, times.2⟩ with _ | high <;>
      simp

theorem IsTolerance.spec (isTolerance : IsTolerance scope times tolerance leaf direction) :
    (∃ error, analyzeAsofDirection leaf = .error error) ∧
      extractAsofTolerance leaf = .ok tolerance ∧ conjuncts leaf = [leaf] ∧
        interpreted scope true leaf = true ∧ isNegatedBetween leaf = false := by
  have isWritten : ∃ later earlier limit,
      leaf = .binary (.binary later .minus earlier) .ltEq limit ∧ IsLimit tolerance limit ∧
        isSum scope later = true ∧ isSum scope earlier = true := by
    cases direction with
    | nearest => exact isTolerance.elim
    | backward | forward =>
      obtain ⟨later, earlier, limit, rfl, isLimit, isLater, isEarlier⟩ := isTolerance
      exact ⟨later, earlier, limit, rfl, isLimit, isLater.isSum_eq, isEarlier.isSum_eq⟩
  obtain ⟨later, earlier, limit, rfl, isLimit, isLater, isEarlier⟩ := isWritten
  refine ⟨⟨_, rfl⟩, ?_, rfl, ?_, rfl⟩
  · rcases isLimit with ⟨rfl, small⟩ | ⟨literal, rfl, plain⟩
    · simp only [extractAsofTolerance, parseU64, if_pos small]
    · exact plain.parse
  · rcases isLimit with ⟨rfl, _⟩ | ⟨literal, rfl, _, _, _, isDuration⟩
    · simp [interpreted, BinaryOperator.isOrder, isSum, isLater, isEarlier]
    · simp [interpreted, BinaryOperator.isOrder, isSum, isLater, isEarlier, isDuration]

theorem IsLimit.evaluate_eq {limit : Expr} (isLimit : IsLimit tolerance limit) :
    evaluate scope pair limit = some (tolerance : Int) := by
  rcases isLimit with ⟨rfl, _⟩ | ⟨literal, rfl, _, _, _, isDuration⟩
  · rfl
  · simp only [evaluate, isDuration]
    rfl

/-- With the tolerance, the comparison says what `find_match` accepts. -/
theorem IsTolerance.holds_eq {order : Expr}
    (isTolerance : IsTolerance scope times tolerance leaf direction)
    (isOrder : IsOrder scope times order direction) :
    (leafHolds scope pair order && leafHolds scope pair leaf) =
      (direction.window times (some tolerance)).holds pair := by
  rw [isOrder.holds_eq]
  cases direction with
  | nearest => exact isTolerance.elim
  | backward | forward =>
    obtain ⟨later, earlier, limit, rfl, isLimit, isLater, isEarlier⟩ := isTolerance
    simp only [leafHolds, atMost, evaluate, isLater.evaluate_eq, isEarlier.evaluate_eq,
      isLimit.evaluate_eq, TimeWindow.holds, AsofDirection.window]
    rcases pair ⟨.left, times.1⟩ with _ | low <;> rcases pair ⟨.right, times.2⟩ with _ | high <;>
      simp [Bool.and_comm]

theorem analyzeAsofMatchCondition_written {condition : Expr} {tolerance : Option Nat}
    (written : WrittenMatch scope times direction condition tolerance) :
    analyzeAsofMatchCondition condition = .ok ⟨direction, times.1, times.2, tolerance⟩ ∧
      (∀ leaf ∈ conjuncts condition, isNegatedBetween leaf = false) ∧
        ∀ truth pair, Satisfied scope true truth pair condition ↔
          (direction.window times tolerance).holds pair = true := by
  cases tolerance with
  | none =>
    have isOrder : IsOrder scope times condition direction := written
    obtain ⟨_, isSingle, isInterpreted, notNegated, isFound⟩ := isOrder.spec
    refine ⟨isFound, ?_, fun truth pair => ?_⟩
    · rw [isSingle]
      exact forall_mem_singleton.mpr notNegated
    · rw [Satisfied, isSingle, forall_mem_singleton, if_pos isInterpreted, isOrder.holds_eq]
  | some tolerance =>
    obtain ⟨first, second, rfl, isWritten⟩ := written
    rcases isWritten with ⟨isOrder, isTolerance⟩ | ⟨isTolerance, isOrder⟩
    all_goals
      obtain ⟨isDirection, orderSingle, orderInterpreted, orderNotNegated, _⟩ := isOrder.spec
      obtain ⟨⟨error, notDirection⟩, isLimit, limitSingle, limitInterpreted, limitNotNegated⟩ :=
        isTolerance.spec
      refine ⟨?_, ?_, fun truth pair => ?_⟩
    · simp only [analyzeAsofMatchCondition, isDirection, isLimit]
      rfl
    · rw [conjuncts, orderSingle, limitSingle]
      exact forall_mem_cons.mpr ⟨orderNotNegated, forall_mem_singleton.mpr limitNotNegated⟩
    · rw [← isTolerance.holds_eq isOrder, Satisfied, conjuncts, orderSingle, limitSingle,
        singleton_append, forall_mem_cons, forall_mem_singleton, if_pos orderInterpreted,
        if_pos limitInterpreted, Bool.and_eq_true]
    · simp only [analyzeAsofMatchCondition, notDirection, isDirection, isLimit]
      rfl
    · rw [conjuncts, orderSingle, limitSingle]
      exact forall_mem_cons.mpr ⟨limitNotNegated, forall_mem_singleton.mpr orderNotNegated⟩
    · rw [← isTolerance.holds_eq isOrder, Satisfied, conjuncts, orderSingle, limitSingle,
        singleton_append, forall_mem_cons, forall_mem_singleton, if_pos orderInterpreted,
        if_pos limitInterpreted, Bool.and_eq_true, and_comm]

end

end LaminarDB.Sql
