import Mathlib

/-!
# Planning of lookup joins

`LookupJoinRewriteRule` and `PredicateSplitterRule`: a join with a registered lookup table
becomes a `LookupJoinNode`, and a filter above the node is taken into it.

Expressions are those of DataFusion, with one constructor for the forms whose operands the
classifier only walks through. `text` is how DataFusion displays an expression. The
metadata of a node and its required columns, which neither the splitter nor the planner
reads, are not modelled.
-/

namespace LaminarDB.Sql.Lookup

inductive DataType where
  | int64
  | float64
  | utf8
  | other (name : String)
deriving DecidableEq

structure Field where
  name : String
  dataType : DataType
deriving DecidableEq

def names (fields : List Field) : List String := fields.map Field.name

inductive Operator where
  | and
  | eq
  | notEq
  | other (symbol : String)
deriving DecidableEq

inductive NodeKind where
  | isNull
  | isNotNull
  | negative
  | cast (target : DataType)
  | tryCast (target : DataType)
  | between (negated : Bool)
  | inList (negated : Bool)
  | scalarFunction (name : String)
  | like (negated : Bool)
  | caseWhen
deriving DecidableEq

inductive Expr where
  | column (relation : Option String) (name : String)
  | literal (text : String)
  | binary (left : Expr) (operator : Operator) (right : Expr)
  | not (inner : Expr)
  | node (kind : NodeKind) (operands : List Expr)
  | other (text : String)

def splitConjunction : Expr → List Expr
  | .binary left .and right => splitConjunction left ++ splitConjunction right
  | other => [other]

def containsNotEq : Expr → Bool
  | .binary left operator right =>
    operator == .notEq || containsNotEq left || containsNotEq right
  | .not inner => containsNotEq inner
  | _ => false

inductive PredicateClass where
  | lookupOnly
  | streamOnly
  | crossReference
  | constant
deriving DecidableEq

structure PredicateClassifier where
  lookupColumns : List String
  streamColumns : List String
  lookupQualified : List String
  streamQualified : List String
deriving DecidableEq

def qualified (aliasName : Option String) (columns : List String) : List String :=
  match aliasName with
  | none => []
  | some name => columns.map fun column => name ++ "." ++ column

def PredicateClassifier.new (lookupColumns streamColumns : List String)
    (lookupAlias streamAlias : Option String) : PredicateClassifier where
  lookupColumns := lookupColumns
  streamColumns := streamColumns
  lookupQualified := qualified lookupAlias lookupColumns
  streamQualified := qualified streamAlias streamColumns

structure Seen where
  lookup : Bool
  stream : Bool
deriving DecidableEq

def Seen.union (first second : Seen) : Seen :=
  ⟨first.lookup || second.lookup, first.stream || second.stream⟩

def PredicateClassifier.unqualified (classifier : PredicateClassifier) (name : String) : Seen :=
  ⟨classifier.lookupColumns.contains name, classifier.streamColumns.contains name⟩

def PredicateClassifier.column (classifier : PredicateClassifier) (relation : Option String)
    (name : String) : Seen :=
  match relation with
  | none => classifier.unqualified name
  | some table =>
    if classifier.lookupQualified.contains (table ++ "." ++ name) then ⟨true, false⟩
    else if classifier.streamQualified.contains (table ++ "." ++ name) then ⟨false, true⟩
    else classifier.unqualified name

mutual

/-- `walk_columns`. Forms that are not known count for both sides. -/
def walkColumns (classifier : PredicateClassifier) : Expr → Seen
  | .column relation name => classifier.column relation name
  | .literal _ => ⟨false, false⟩
  | .binary left _ right => (walkColumns classifier left).union (walkColumns classifier right)
  | .not inner => walkColumns classifier inner
  | .node _ operands => walkOperands classifier operands
  | .other _ => ⟨true, true⟩

def walkOperands (classifier : PredicateClassifier) : List Expr → Seen
  | [] => ⟨false, false⟩
  | operand :: operands =>
    (walkColumns classifier operand).union (walkOperands classifier operands)

end

def PredicateClassifier.classify (classifier : PredicateClassifier) (expr : Expr) :
    PredicateClass :=
  match walkColumns classifier expr with
  | ⟨true, false⟩ => .lookupOnly
  | ⟨false, true⟩ => .streamOnly
  | ⟨true, true⟩ => .crossReference
  | ⟨false, false⟩ => .constant

inductive PlanJoinType where
  | inner
  | left
  | right
deriving DecidableEq

inductive InputPlan where
  | tableScan (table : String) (fields : List Field)
  | subqueryAlias (aliasName : String) (input : InputPlan)
  | other (fields : List Field)

def InputPlan.fields : InputPlan → List Field
  | .tableScan _ fields => fields
  | .subqueryAlias _ input => input.fields
  | .other fields => fields

def scanTableNameAndAlias : InputPlan → Option (String × Option String)
  | .tableScan table _ => some (table, none)
  | .subqueryAlias aliasName input =>
    (scanTableNameAndAlias input).map fun found => (found.1, some aliasName)
  | .other _ => none

def scanTableName (plan : InputPlan) : Option String :=
  (scanTableNameAndAlias plan).map Prod.fst

/-- A join of two inputs: the pairs of its equalities and the rest of its `ON`. -/
structure JoinPlan where
  left : InputPlan
  right : InputPlan
  on : List (Expr × Expr)
  filter : Option Expr
  joinType : PlanJoinType

inductive LookupJoinType where
  | inner
  | leftOuter
deriving DecidableEq

structure JoinKeyPair where
  streamExpr : Expr
  lookupColumn : String

structure LookupJoinNode where
  input : InputPlan
  lookupTable : String
  lookupSchema : List Field
  joinKeys : List JoinKeyPair
  joinType : LookupJoinType
  pushdownPredicates : List Expr
  localPredicates : List Expr
  lookupAlias : Option String
  streamAlias : Option String

/-- `detect_lookup_side`: whether the lookup table is on the right, and its name. -/
def detectLookupSide (lookupTables : List String) (join : JoinPlan) : Option (Bool × String) :=
  match (scanTableName join.right).filter lookupTables.contains with
  | some name => some (true, name)
  | none => ((scanTableName join.left).filter lookupTables.contains).map fun name => (false, name)

def JoinPlan.stream (join : JoinPlan) (lookupIsRight : Bool) : InputPlan :=
  if lookupIsRight then join.left else join.right

def JoinPlan.lookup (join : JoinPlan) (lookupIsRight : Bool) : InputPlan :=
  if lookupIsRight then join.right else join.left

def JoinPlan.keys (join : JoinPlan) (lookupIsRight : Bool) : List (Expr × Expr) :=
  if lookupIsRight then join.on else join.on.map Prod.swap

/-- The join types that are rewritten: the lookup side must not be preserved. -/
def lookupJoinType (lookupIsRight : Bool) : PlanJoinType → Option LookupJoinType
  | .inner => some .inner
  | .left => if lookupIsRight then some .leftOuter else none
  | .right => if lookupIsRight then none else some .leftOuter

/-- `LookupJoinRewriteRule::rewrite`: no node if the join is left as it is. The output
schema has no qualifiers, so the names of the fields must differ. -/
def rewriteJoin (text : Expr → String) (lookupTables : List String) (join : JoinPlan) :
    Except String (Option LookupJoinNode) :=
  match detectLookupSide lookupTables join with
  | none => .ok none
  | some (lookupIsRight, tableName) =>
    match lookupJoinType lookupIsRight join.joinType with
    | none => .ok none
    | some joinType =>
      let stream := join.stream lookupIsRight
      let lookup := join.lookup lookupIsRight
      if (names (stream.fields ++ lookup.fields)).Nodup then
        .ok (some
          { input := stream
            lookupTable := tableName
            lookupSchema := lookup.fields
            joinKeys := (join.keys lookupIsRight).map fun pair => ⟨pair.1, text pair.2⟩
            joinType := joinType
            pushdownPredicates := []
            localPredicates := []
            lookupAlias := (scanTableNameAndAlias lookup).bind Prod.snd
            streamAlias := (scanTableNameAndAlias stream).bind Prod.snd })
      else .error "Schema contains duplicate unqualified field name"

inductive PlanPushdownMode where
  | full
  | keyOnly
  | none
deriving DecidableEq

variable (node : LookupJoinNode)

def LookupJoinNode.classifier : PredicateClassifier :=
  .new (names node.lookupSchema) (names node.input.fields) node.lookupAlias node.streamAlias

variable (mode : Option PlanPushdownMode)

/-- Whether `split_for_node` pushes a predicate down, where the mode is the registered one
of the lookup table. -/
def LookupJoinNode.pushes (predicate : Expr) : Bool :=
  node.classifier.classify predicate == .lookupOnly &&
    !(node.joinType == .leftOuter || mode.all (· == .none) || containsNotEq predicate)

variable (filterPredicates : List Expr)

/-- `split_for_node`: what is pushed down and what stays local. -/
def LookupJoinNode.splitForNode : List Expr × List Expr :=
  (node.pushdownPredicates ++ node.localPredicates ++ filterPredicates).partition (node.pushes mode)

def LookupJoinNode.withSplit : LookupJoinNode :=
  { node with
    pushdownPredicates := (node.splitForNode mode filterPredicates).1
    localPredicates := (node.splitForNode mode filterPredicates).2 }

/-- `PredicateSplitterRule::rewrite` of a node, with the predicate of a filter above it. -/
def LookupJoinNode.splitPredicates (predicate : Option Expr) : LookupJoinNode :=
  match predicate with
  | some predicate => node.withSplit mode (splitConjunction predicate)
  | none =>
    if node.pushdownPredicates.isEmpty && node.localPredicates.isEmpty then node
    else node.withSplit mode []

end LaminarDB.Sql.Lookup
