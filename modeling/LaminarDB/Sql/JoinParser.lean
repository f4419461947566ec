import Mathlib

/-!
# Analysis of join conditions

`join_parser.rs` with the translation of its result (`JoinOperatorConfig::from_analysis`)
and the three functions of the stream executor that decide whether a query is run by the
interval, the ASOF or the temporal join.

The input is the parsed statement. Expressions have the forms the analysis looks at;
all others are `other`. Error messages are without the dumps of the syntax tree, and the
projection that replaces the select list is not modelled.
-/

namespace LaminarDB.Sql

inductive BinaryOperator where
  | and
  | eq
  | lt
  | ltEq
  | gt
  | gtEq
  | plus
  | minus
  | other (name : String)
deriving DecidableEq

inductive DateTimeField where
  | millisecond
  | second
  | minute
  | hour
  | day
  | other (name : String)
deriving DecidableEq

/-- An `INTERVAL` literal: the numbers of its text with their units, and the unit after the text. A
text that does not start with an unsigned number has no terms. -/
structure Interval where
  terms : List (Nat × Option DateTimeField)
  leadingField : Option DateTimeField
deriving DecidableEq

/-- An argument of a call: the parts of a column reference, or any other. -/
inductive FunctionArg where
  | column (parts : List String)
  | other (text : String)
deriving DecidableEq

/-- A number is an unsigned integer; all others are `other`. A call without a list of
arguments has none. -/
inductive Expr where
  | identifier (name : String)
  | compound (parts : List String)
  | number (value : Nat)
  | interval (literal : Interval)
  | binary (left : Expr) (operator : BinaryOperator) (right : Expr)
  | between (expr low high : Expr) (negated : Bool)
  | nested (inner : Expr)
  | function (name : String) (arguments : Option (List FunctionArg))
  | other (text : String)
deriving DecidableEq

inductive JoinConstraint where
  | on (condition : Expr)
  | using_ (columns : List String)
  | natural
  | none

/-- The operators with a constraint, by the join type they are mapped to. -/
inductive JoinType where
  | inner
  | left
  | right
  | full
  | leftSemi
  | leftAnti
  | rightSemi
  | rightAnti
  | asOf
deriving DecidableEq

inductive JoinOperator where
  | constrained (joinType : JoinType) (constraint : JoinConstraint)
  | asOf (matchCondition : Expr) (constraint : JoinConstraint)
  /-- `CROSS JOIN`, `CROSS APPLY` and `OUTER APPLY`. -/
  | cross

/-- The expression after `FOR SYSTEM_TIME AS OF`: a column, or the text of any other. -/
inductive TableVersion where
  | column (parts : List String)
  | text (text : String)
deriving DecidableEq

inductive TableFactor where
  | table (name : String) (aliasName : Option String) (version : Option TableVersion)
  | derived (aliasName : Option String)
  | other
deriving DecidableEq

structure Join where
  relation : TableFactor
  operator : JoinOperator

/-- The first table of a `FROM` clause with its joins. -/
structure Select where
  relation : TableFactor
  joins : List Join

def u64Size : Nat := 18446744073709551616

/-- `parse::<u64>` of a number that is written out. -/
def parseU64 (value : Nat) (message : String) : Except String Nat :=
  if value < u64Size then .ok value else .error (message ++ toString value)

/-- `extract_interval_value`: the first number of the text. -/
def extractIntervalValue (literal : Interval) : Except String Nat :=
  match literal.terms with
  | [] => .error "Invalid interval value: "
  | (value, _) :: _ => parseU64 value "Invalid interval value: "

/-- `parse_interval_to_duration`, in milliseconds. The unit is the one after the text, or
`SECOND`; the number of seconds is computed in 64 bits. -/
def parseIntervalToDuration (literal : Interval) : Except String Nat := do
  let value ← extractIntervalValue literal
  match literal.leadingField.getD .second with
  | .millisecond => return value
  | .second => return value * 1000
  | .minute => return value * 60 % u64Size * 1000
  | .hour => return value * 3600 % u64Size * 1000
  | .day => return value * 86400 % u64Size * 1000
  | .other name => .error ("Unsupported interval unit: " ++ name)

def extractColumnRef : Expr → Option String
  | .identifier name => some name
  | .compound parts => parts.getLast?
  | _ => none

def extractColumnFromFuncArg : FunctionArg → Option String
  | .column parts => parts.getLast?
  | .other _ => none

def extractQualifiedColumnRef : Expr → Option (Option String × String)
  | .identifier name => some (none, name)
  | .compound [qualifier, name] => some (some qualifier, name)
  | .compound parts => parts.getLast?.map fun name => (none, name)
  | _ => none

structure RawTimeCols where
  exprQualifier : Option String
  exprCol : String
  lowQualifier : Option String
  lowCol : String
deriving DecidableEq

def matchesTable (table : String) (aliasName : Option String) (qualifier : Option String) : Bool :=
  qualifier.any fun name => name == table || aliasName == some name

/-- `resolve_time_cols`: the left and the right time column. -/
def resolveTimeCols (raw : RawTimeCols) (leftTable rightTable : String)
    (leftAlias rightAlias : Option String) : String × String :=
  if matchesTable rightTable rightAlias raw.exprQualifier &&
      matchesTable leftTable leftAlias raw.lowQualifier then (raw.lowCol, raw.exprCol)
  else if matchesTable leftTable leftAlias raw.exprQualifier &&
      matchesTable rightTable rightAlias raw.lowQualifier then (raw.exprCol, raw.lowCol)
  else (raw.lowCol, raw.exprCol)

/-- `extract_time_bound_from_expr`, in milliseconds. -/
def extractTimeBound : Expr → Except String Nat
  | .interval literal => parseIntervalToDuration literal
  | .binary _ .plus right => extractTimeBound right
  | .binary _ .minus right => extractTimeBound right
  | .nested inner => extractTimeBound inner
  | _ => .error "Cannot extract time bound"

structure OnAnalysis where
  keyPairs : List (String × String)
  timeBound : Option Nat
  timeCols : Option RawTimeCols
deriving DecidableEq

def OnAnalysis.merge (left right : OnAnalysis) : OnAnalysis where
  keyPairs := left.keyPairs ++ right.keyPairs
  timeBound := left.timeBound.or right.timeBound
  timeCols := left.timeCols.or right.timeCols

/-- The time columns of a `BETWEEN`. -/
def betweenTimeCols (expr low : Expr) : Option RawTimeCols :=
  match extractQualifiedColumnRef expr, extractQualifiedColumnRef low with
  | some (exprQualifier, exprCol), some (lowQualifier, lowCol) =>
    some ⟨exprQualifier, exprCol, lowQualifier, lowCol⟩
  | _, _ => none

def BinaryOperator.isOrder : BinaryOperator → Bool
  | .lt => true
  | .ltEq => true
  | .gt => true
  | .gtEq => true
  | _ => false

/-- `analyze_on_expression`. An error in one operand of `AND` is dropped. -/
def analyzeOnExpression : Expr → Except String OnAnalysis
  | .binary left .and right =>
    match analyzeOnExpression left, analyzeOnExpression right with
    | .ok leftResult, .ok rightResult => .ok (leftResult.merge rightResult)
    | .ok result, .error _ => .ok result
    | .error _, .ok result => .ok result
    | .error error, .error _ => .error error
  | .binary left .eq right =>
    match extractColumnRef left, extractColumnRef right with
    | some leftCol, some rightCol => .ok ⟨[(leftCol, rightCol)], none, none⟩
    | _, _ => .error "Cannot extract column references from equality condition"
  | .between expr low high _ =>
    .ok ⟨[], (extractTimeBound high).toOption, betweenTimeCols expr low⟩
  | .binary _ operator right =>
    if operator.isOrder then .ok ⟨[], (extractTimeBound right).toOption, none⟩
    else .error "Unsupported join condition expression"
  | _ => .error "Unsupported join condition expression"

structure ConstraintAnalysis where
  leftKey : String
  rightKey : String
  additional : List (String × String)
  timeBound : Option Nat
  timeCols : Option RawTimeCols
deriving DecidableEq

/-- `analyze_join_constraint` after `get_join_constraint`. -/
def analyzeJoinConstraint : JoinConstraint → Except String ConstraintAnalysis
  | .on condition =>
    (analyzeOnExpression condition).map fun analysis =>
      match analysis.keyPairs with
      | [] => ⟨"", "", [], analysis.timeBound, analysis.timeCols⟩
      | (leftKey, rightKey) :: additional =>
        ⟨leftKey, rightKey, additional, analysis.timeBound, analysis.timeCols⟩
  | .using_ [] => .error "USING clause requires at least one column"
  | .using_ (column :: columns) =>
    .ok ⟨column, column, columns.map fun other => (other, other), none, none⟩
  | .natural => .error "NATURAL JOIN not supported for streaming"
  | .none => .error "JOIN without condition not supported for streaming"

inductive AsofDirection where
  | backward
  | forward
  | nearest
deriving DecidableEq

def require (column : Option String) (message : String) : Except String String :=
  match column with
  | some column => .ok column
  | none => .error message

/-- `analyze_asof_direction`: the direction and the two time columns. -/
def analyzeAsofDirection : Expr → Except String (AsofDirection × String × String)
  | .binary left .gtEq right => do
      let leftCol ← require (extractColumnRef left)
        "Cannot extract left time column from MATCH_CONDITION"
      let rightCol ← require (extractColumnRef right)
        "Cannot extract right time column from MATCH_CONDITION"
      return (.backward, leftCol, rightCol)
  | .binary left .ltEq right => do
      let leftCol ← require (extractColumnRef left)
        "Cannot extract left time column from MATCH_CONDITION"
      let rightCol ← require (extractColumnRef right)
        "Cannot extract right time column from MATCH_CONDITION"
      return (.forward, leftCol, rightCol)
  | .function name arguments =>
    if name.toUpper ≠ "NEAREST" then
      .error ("Unknown ASOF MATCH_CONDITION function: " ++ name.toUpper)
    else
      match arguments with
      | none => .error "NEAREST() requires exactly 2 column arguments"
      | some [left, right] => do
          let leftCol ← require (extractColumnFromFuncArg left)
            "Cannot extract left time column from NEAREST()"
          let rightCol ← require (extractColumnFromFuncArg right)
            "Cannot extract right time column from NEAREST()"
          return (.nearest, leftCol, rightCol)
      | some others =>
        .error ("NEAREST() requires exactly 2 arguments, got " ++ toString others.length)
  | _ => .error "ASOF MATCH_CONDITION must be >= or <= comparison, or NEAREST()"

/-- `extract_asof_tolerance`, in milliseconds. The left operand is not looked at. -/
def extractAsofTolerance : Expr → Except String Nat
  | .binary _ .ltEq (.number value) => parseU64 value "Cannot parse tolerance as number: "
  | .binary _ .ltEq (.interval literal) => parseIntervalToDuration literal
  | .binary _ .ltEq _ => .error "ASOF tolerance must be a number or INTERVAL"
  | _ => .error "ASOF tolerance expression must be <= comparison"

structure MatchAnalysis where
  direction : AsofDirection
  leftTime : String
  rightTime : String
  tolerance : Option Nat
deriving DecidableEq

def MatchAnalysis.of (found : AsofDirection × String × String) (tolerance : Option Nat) :
    MatchAnalysis :=
  ⟨found.1, found.2.1, found.2.2, tolerance⟩

def analyzeAsofMatchCondition : Expr → Except String MatchAnalysis
  | .binary left .and right =>
    match analyzeAsofDirection left, extractAsofTolerance right with
    | .ok found, .ok tolerance => .ok (.of found (some tolerance))
    | .ok found, .error _ =>
      match analyzeAsofDirection right, extractAsofTolerance left with
      | .ok other, .ok tolerance => .ok (.of other (some tolerance))
      | _, _ => .ok (.of found none)
    | .error _, _ =>
      match analyzeAsofDirection right, extractAsofTolerance left with
      | .ok other, .ok tolerance => .ok (.of other (some tolerance))
      | .ok other, .error _ => .ok (.of other none)
      | _, _ => .error "Cannot extract ASOF direction from MATCH_CONDITION"
  | expr => (analyzeAsofDirection expr).map fun found => .of found none

def extractEqualityColumns : Expr → Except String (String × String)
  | .binary left .eq right => do
      let leftCol ← require (extractColumnRef left) "Cannot extract left key column"
      let rightCol ← require (extractColumnRef right) "Cannot extract right key column"
      return (leftCol, rightCol)
  | .binary left .and right =>
    match extractEqualityColumns left with
    | .ok columns => .ok columns
    | .error _ => extractEqualityColumns right
  | _ => .error "ASOF JOIN ON clause must contain an equality condition"

def analyzeAsofConstraint : JoinConstraint → Except String (String × String)
  | .on condition => extractEqualityColumns condition
  | .using_ [] => .error "USING clause requires at least one column"
  | .using_ (column :: _) => .ok (column, column)
  | _ => .error "ASOF JOIN requires ON or USING constraint"

def extractTableName : TableFactor → Except String String
  | .table name _ _ => .ok name
  | .derived (some aliasName) => .ok aliasName
  | .derived none => .error "Derived table without alias not supported"
  | .other => .error "Unsupported table factor type"

def extractTableAlias : TableFactor → Option String
  | .table _ aliasName _ => aliasName
  | .derived aliasName => aliasName
  | .other => none

def extractTemporalVersion : TableFactor → Option String
  | .table _ _ (some (.column parts)) => some (parts.getLast?.getD "")
  | .table _ _ (some (.text text)) => some text
  | _ => none

structure JoinAnalysis where
  joinType : JoinType
  leftTable : String
  rightTable : String
  leftKeyColumn : String
  rightKeyColumn : String
  timeBound : Option Nat
  isLookupJoin : Bool
  leftAlias : Option String
  rightAlias : Option String
  isAsofJoin : Bool
  asofDirection : Option AsofDirection
  leftTimeColumn : Option String
  rightTimeColumn : Option String
  asofTolerance : Option Nat
  isTemporalJoin : Bool
  temporalVersionColumn : Option String
  additionalKeyColumns : List (String × String)
deriving DecidableEq

open JoinAnalysis

structure Input where
  table : String
  aliasName : Option String
deriving DecidableEq

/-- A join with neither time bound nor version, as `JoinAnalysis::lookup`. -/
def JoinAnalysis.lookup (left right : Input) (joinType : JoinType)
    (found : ConstraintAnalysis) : JoinAnalysis where
  joinType := joinType
  leftTable := left.table
  rightTable := right.table
  leftKeyColumn := found.leftKey
  rightKeyColumn := found.rightKey
  timeBound := none
  isLookupJoin := true
  leftAlias := left.aliasName
  rightAlias := right.aliasName
  isAsofJoin := false
  asofDirection := none
  leftTimeColumn := none
  rightTimeColumn := none
  asofTolerance := none
  isTemporalJoin := false
  temporalVersionColumn := none
  additionalKeyColumns := found.additional

/-- An ASOF join, as `JoinAnalysis::asof`. -/
def JoinAnalysis.asof (left right : Input) (found : MatchAnalysis) (keys : String × String) :
    JoinAnalysis :=
  { lookup left right .asOf ⟨keys.1, keys.2, [], none, none⟩ with
    isLookupJoin := false
    isAsofJoin := true
    asofDirection := some found.direction
    leftTimeColumn := some found.leftTime
    rightTimeColumn := some found.rightTime
    asofTolerance := found.tolerance }

/-- A temporal join, as `JoinAnalysis::temporal`. -/
def JoinAnalysis.temporal (left right : Input) (joinType : JoinType) (version : String)
    (found : ConstraintAnalysis) : JoinAnalysis :=
  { lookup left right joinType found with
    isLookupJoin := false
    isTemporalJoin := true
    temporalVersionColumn := some version }

def JoinAnalysis.regular (left right : Input) (joinType : JoinType)
    (found : ConstraintAnalysis) : JoinAnalysis :=
  let columns := found.timeCols.map fun raw =>
    resolveTimeCols raw left.table right.table left.aliasName right.aliasName
  { lookup left right joinType found with
    timeBound := found.timeBound
    isLookupJoin := found.timeBound.isNone
    leftTimeColumn := columns.map Prod.fst
    rightTimeColumn := columns.map Prod.snd }

def analyzeStep (left : Input) (join : Join) : Except String (Input × JoinAnalysis) := do
  let rightTable ← extractTableName join.relation
  let right : Input := ⟨rightTable, extractTableAlias join.relation⟩
  match join.operator with
  | .asOf matchCondition constraint =>
    let found ← analyzeAsofMatchCondition matchCondition
    let keys ← analyzeAsofConstraint constraint
    return (right, .asof left right found keys)
  | .cross => .error "CROSS JOIN not supported for streaming"
  | .constrained joinType constraint =>
    let found ← analyzeJoinConstraint constraint
    match extractTemporalVersion join.relation with
    | some version => return (right, .temporal left right joinType version found)
    | none => return (right, .regular left right joinType found)

/-- The loop of `analyze_joins`: the left input of a join is the right one of the join
before it. -/
def analyzeSteps (left : Input) : List Join → Except String (List (Join × JoinAnalysis))
  | [] => .ok []
  | join :: joins => do
      let (right, analysis) ← analyzeStep left join
      let rest ← analyzeSteps right joins
      return (join, analysis) :: rest

/-- `analyze_joins`, with the join that each analysis is of. -/
def analyzeJoins (select : Select) : Except String (List (Join × JoinAnalysis)) := do
  if select.joins.isEmpty then return []
  let table ← extractTableName select.relation
  analyzeSteps ⟨table, extractTableAlias select.relation⟩ select.joins

inductive StreamJoinType where
  | inner
  | left
  | right
  | full
deriving DecidableEq

structure StreamJoinConfig where
  leftKey : String
  rightKey : String
  leftTimeColumn : String
  rightTimeColumn : String
  leftTable : String
  rightTable : String
  timeBound : Nat
  joinType : StreamJoinType
deriving DecidableEq

/-- `AsofJoinTranslatorConfig`. -/
structure AsofJoinConfig where
  leftTable : String
  rightTable : String
  keyColumn : String
  leftTimeColumn : String
  rightTimeColumn : String
  direction : AsofDirection
  tolerance : Option Nat
  isInner : Bool
deriving DecidableEq

/-- `TemporalJoinTranslatorConfig`. -/
structure TemporalJoinConfig where
  streamTable : String
  tableName : String
  streamKeyColumn : String
  tableKeyColumn : String
  streamTimeColumn : String
  tableVersionColumn : String
  semantics : String
  joinType : String
deriving DecidableEq

inductive JoinOperatorConfig where
  | streamStream (config : StreamJoinConfig)
  /-- `LookupJoinConfig`, which none of the three functions uses. -/
  | lookup
  | asof (config : AsofJoinConfig)
  | temporal (config : TemporalJoinConfig)
deriving DecidableEq

def JoinType.toStream : JoinType → StreamJoinType
  | .left => .left
  | .asOf => .left
  | .right => .right
  | .full => .full
  | _ => .inner

def JoinOperatorConfig.fromAnalysis (analysis : JoinAnalysis) : JoinOperatorConfig :=
  if analysis.isTemporalJoin then
    .temporal
      { streamTable := analysis.leftTable
        tableName := analysis.rightTable
        streamKeyColumn := analysis.leftKeyColumn
        tableKeyColumn := analysis.rightKeyColumn
        streamTimeColumn := analysis.temporalVersionColumn.getD ""
        tableVersionColumn := analysis.temporalVersionColumn.getD ""
        semantics := "event_time"
        joinType := if analysis.joinType = .left then "left" else "inner" }
  else if analysis.isAsofJoin then
    .asof
      { leftTable := analysis.leftTable
        rightTable := analysis.rightTable
        keyColumn := analysis.leftKeyColumn
        leftTimeColumn := analysis.leftTimeColumn.getD ""
        rightTimeColumn := analysis.rightTimeColumn.getD ""
        direction := analysis.asofDirection.getD .backward
        tolerance := analysis.asofTolerance
        isInner := analysis.joinType = .inner }
  else if analysis.isLookupJoin then .lookup
  else
    .streamStream
      { leftKey := analysis.leftKeyColumn
        rightKey := analysis.rightKeyColumn
        leftTimeColumn := analysis.leftTimeColumn.getD ""
        rightTimeColumn := analysis.rightTimeColumn.getD ""
        leftTable := analysis.leftTable
        rightTable := analysis.rightTable
        timeBound := analysis.timeBound.getD 3600000
        joinType := analysis.joinType.toStream }

/-- A join that is accepted, with its analysis and the configuration it is run with. -/
structure Detected (Config : Type) where
  join : Join
  analysis : JoinAnalysis
  config : Config

variable (select : Select)

def findJoin (accepts : JoinAnalysis → Bool) : Option (Join × JoinAnalysis) :=
  match analyzeJoins select with
  | .error _ => none
  | .ok steps => steps.find? fun step => accepts step.2

def detectAsofQuery : Option (Detected AsofJoinConfig) :=
  (findJoin select isAsofJoin).bind fun (join, analysis) =>
    match JoinOperatorConfig.fromAnalysis analysis with
    | .asof config => some ⟨join, analysis, config⟩
    | _ => none

def detectTemporalQuery : Option (Detected TemporalJoinConfig) :=
  (findJoin select isTemporalJoin).bind fun (join, analysis) =>
    match JoinOperatorConfig.fromAnalysis analysis with
    | .temporal config => some ⟨join, analysis, config⟩
    | _ => none

def JoinAnalysis.isStreamStream (analysis : JoinAnalysis) : Bool :=
  analysis.timeBound.isSome && !analysis.isAsofJoin && !analysis.isTemporalJoin &&
    !analysis.isLookupJoin

/-- `detect_stream_join_query`: only inner joins with time columns are accepted. -/
def detectStreamJoinQuery : Option (Detected StreamJoinConfig) :=
  (findJoin select isStreamStream).bind fun (join, analysis) =>
    match JoinOperatorConfig.fromAnalysis analysis with
    | .streamStream config =>
      if config.leftTimeColumn = "" ∨ config.rightTimeColumn = "" then none
      else if config.joinType = .inner then some ⟨join, analysis, config⟩
      else none
    | _ => none

end LaminarDB.Sql
