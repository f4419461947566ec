import LaminarDB.Sql.JoinParser

/-!
# Meaning of join conditions

What the clause of a join says about a pair of rows, independently of how the analysis reads it.
Values are integers; a text stands for its number in any numbering. A comparison with a null is not
satisfied, and times, intervals and numbers are in milliseconds.

A comparison is interpreted when its operands are sums of columns and constants. All other conjuncts
(disjunctions, products, calls, columns of other tables) are satisfied as an arbitrary predicate
says.

The predicate that the engine evaluates on a pair of rows stands at the end.
-/

namespace LaminarDB.Sql

inductive Side where
  | left
  | right
deriving DecidableEq

structure Column where
  side : Side
  name : String
deriving DecidableEq

abbrev RowPair := Column → Option Int

/-- The inputs of a join, and the input that a column without qualifier is of. -/
structure Scope where
  left : Input
  right : Input
  unqualified : String → Option Side

def Scope.sideOf (scope : Scope) (qualifier : String) : Option Side :=
  match matchesTable scope.left.table scope.left.aliasName (some qualifier),
      matchesTable scope.right.table scope.right.aliasName (some qualifier) with
  | true, false => some .left
  | false, true => some .right
  | _, _ => none

def Scope.column (scope : Scope) : List String → Option Column
  | [] => none
  | [name] => (scope.unqualified name).map fun side => ⟨side, name⟩
  | [qualifier, name] => (scope.sideOf qualifier).map fun side => ⟨side, name⟩
  | parts =>
    (scope.sideOf (".".intercalate parts.dropLast)).map fun side => ⟨side, parts.getLast?.getD ""⟩

def DateTimeField.millis : DateTimeField → Option Nat
  | .millisecond => some 1
  | .second => some 1000
  | .minute => some 60000
  | .hour => some 3600000
  | .day => some 86400000
  | .other _ => none

/-- The milliseconds of the terms of an interval, where a unit in the text goes before the
one after it. -/
def termsMillis (leadingField : Option DateTimeField) :
    List (Nat × Option DateTimeField) → Option Nat
  | [] => some 0
  | (value, field) :: terms => do
      let millis ← ((field.or leadingField).getD .second).millis
      let rest ← termsMillis leadingField terms
      return value * millis + rest

def Interval.duration (literal : Interval) : Option Nat :=
  if literal.terms.isEmpty then none else termsMillis literal.leadingField literal.terms

def evaluate (scope : Scope) (pair : RowPair) : Expr → Option Int
  | .identifier name => (scope.column [name]).bind pair
  | .compound parts => (scope.column parts).bind pair
  | .number value => some value
  | .interval literal => literal.duration.map Int.ofNat
  | .nested inner => evaluate scope pair inner
  | .binary left .plus right => do
      return (← evaluate scope pair left) + (← evaluate scope pair right)
  | .binary left .minus right => do
      return (← evaluate scope pair left) - (← evaluate scope pair right)
  | _ => none

/-- A sum of columns of the inputs and constants. -/
def isSum (scope : Scope) : Expr → Bool
  | .identifier name => (scope.column [name]).isSome
  | .compound parts => (scope.column parts).isSome
  | .number _ => true
  | .interval literal => literal.duration.isSome
  | .nested inner => isSum scope inner
  | .binary left .plus right => isSum scope left && isSum scope right
  | .binary left .minus right => isSum scope left && isSum scope right
  | _ => false

/-- Both operands have a value and the first is at most the second plus `slack`. -/
def atMost (scope : Scope) (pair : RowPair) (smaller larger : Expr) (slack : Int) : Bool :=
  match evaluate scope pair smaller, evaluate scope pair larger with
  | some low, some high => decide (low ≤ high + slack)
  | _, _ => false

/-- The columns of `NEAREST`, which restricts no single pair. -/
def nearestColumns (scope : Scope) : List FunctionArg → Option (Column × Column)
  | [.column first, .column second] => do
      return (← scope.column first, ← scope.column second)
  | _ => none

/-- `NEAREST` has a meaning in a `MATCH_CONDITION` only. -/
def interpreted (scope : Scope) (inMatch : Bool) : Expr → Bool
  | .binary left operator right =>
    (operator = .eq || operator.isOrder) && isSum scope left && isSum scope right
  | .between expr low high _ => isSum scope expr && isSum scope low && isSum scope high
  | .function name (some arguments) =>
    inMatch && name.toUpper == "NEAREST" && (nearestColumns scope arguments).isSome
  | _ => false

/-- What an interpreted conjunct says. The negation of a conjunction is satisfied when one
of its parts is false, and a comparison with a null is not. -/
def leafHolds (scope : Scope) (pair : RowPair) : Expr → Bool
  | .binary left .eq right => atMost scope pair left right 0 && atMost scope pair right left 0
  | .binary left .ltEq right => atMost scope pair left right 0
  | .binary left .lt right => atMost scope pair left right (-1)
  | .binary left .gtEq right => atMost scope pair right left 0
  | .binary left .gt right => atMost scope pair right left (-1)
  | .between expr low high false => atMost scope pair low expr 0 && atMost scope pair expr high 0
  | .between expr low high true =>
    atMost scope pair expr low (-1) || atMost scope pair high expr (-1)
  | .function _ (some arguments) =>
    (nearestColumns scope arguments).any fun columns =>
      (pair columns.1).isSome && (pair columns.2).isSome
  | _ => false

def conjuncts : Expr → List Expr
  | .binary left .and right => conjuncts left ++ conjuncts right
  | .nested inner => conjuncts inner
  | leaf => [leaf]

/-- A clause is satisfied, where `truth` decides the conjuncts that are not interpreted. -/
def Satisfied (scope : Scope) (inMatch : Bool) (truth : Expr → Prop) (pair : RowPair)
    (expr : Expr) : Prop :=
  ∀ leaf ∈ conjuncts expr,
    if interpreted scope inMatch leaf then leafHolds scope pair leaf = true else truth leaf

def SameValue (pair : RowPair) (first second : Column) : Prop :=
  ∃ value, pair first = some value ∧ pair second = some value

variable {pair : RowPair}

instance {first second : Column} : Decidable (SameValue pair first second) :=
  match isFirst : pair first with
  | none => .isFalse fun ⟨_, isSome, _⟩ => nomatch isFirst.symm.trans isSome
  | some value =>
    decidable_of_iff (pair second = some value)
      ⟨fun same => ⟨value, isFirst, same⟩, fun ⟨_, isValue, same⟩ =>
        same.trans (isValue.symm.trans isFirst)⟩

def JoinConstraint.Satisfied (scope : Scope) (truth : Expr → Prop) (pair : RowPair) :
    JoinConstraint → Prop
  | .on condition => Sql.Satisfied scope false truth pair condition
  | .using_ names => ∀ name ∈ names, SameValue pair ⟨.left, name⟩ ⟨.right, name⟩
  | .natural => True
  | .none => True

def JoinOperator.Satisfied (scope : Scope) (truth : Expr → Prop) (pair : RowPair) :
    JoinOperator → Prop
  | .constrained _ constraint => constraint.Satisfied scope truth pair
  | .asOf matchCondition constraint =>
    Sql.Satisfied scope true truth pair matchCondition ∧ constraint.Satisfied scope truth pair
  | .cross => True

def isNegatedBetween : Expr → Bool
  | .between _ _ _ negated => negated
  | _ => false

def JoinConstraint.conjuncts : JoinConstraint → List Expr
  | .on condition => Sql.conjuncts condition
  | _ => []

def JoinOperator.conjuncts : JoinOperator → List Expr
  | .constrained _ constraint => constraint.conjuncts
  | .asOf matchCondition constraint => Sql.conjuncts matchCondition ++ constraint.conjuncts
  | .cross => []

/-- The time columns and how far the left time may be ahead of and behind the right one. -/
structure TimeWindow where
  leftTime : String
  rightTime : String
  ahead : Option Nat
  behind : Option Nat
deriving DecidableEq

structure PairPredicate where
  leftKey : String
  rightKey : String
  window : Option TimeWindow
deriving DecidableEq

def StreamJoinConfig.predicate (config : StreamJoinConfig) : PairPredicate where
  leftKey := config.leftKey
  rightKey := config.rightKey
  window := some ⟨config.leftTimeColumn, config.rightTimeColumn, some config.timeBound,
    some config.timeBound⟩

/-- The times that `find_match` accepts. -/
def AsofDirection.window (direction : AsofDirection) (times : String × String)
    (tolerance : Option Nat) : TimeWindow where
  leftTime := times.1
  rightTime := times.2
  ahead := if direction = .forward then some 0 else tolerance
  behind := if direction = .backward then some 0 else tolerance

/-- The rows that `find_match` may choose from; the key has one name for both inputs. -/
def AsofJoinConfig.predicate (config : AsofJoinConfig) : PairPredicate where
  leftKey := config.keyColumn
  rightKey := config.keyColumn
  window := some (config.direction.window (config.leftTimeColumn, config.rightTimeColumn)
    config.tolerance)

/-- A temporal join compares the keys; the version is chosen among the rows with the key. -/
def TemporalJoinConfig.predicate (config : TemporalJoinConfig) : PairPredicate where
  leftKey := config.streamKeyColumn
  rightKey := config.tableKeyColumn
  window := none

def TimeWindow.holds (window : TimeWindow) (pair : RowPair) : Bool :=
  match pair ⟨.left, window.leftTime⟩, pair ⟨.right, window.rightTime⟩ with
  | some left, some right =>
    (window.ahead.all fun limit => decide (left - right ≤ (limit : Int))) &&
      window.behind.all fun limit => decide (right - left ≤ (limit : Int))
  | _, _ => false

def PairPredicate.holds (predicate : PairPredicate) (pair : RowPair) : Bool :=
  decide (SameValue pair ⟨.left, predicate.leftKey⟩ ⟨.right, predicate.rightKey⟩) &&
    predicate.window.all fun window => window.holds pair

end LaminarDB.Sql
