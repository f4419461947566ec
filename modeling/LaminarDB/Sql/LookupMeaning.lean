import LaminarDB.Sql.JoinMeaning
import LaminarDB.Sql.LookupIndexes

/-!
# Meaning of lookup joins

The rows of a query that joins a stream with a lookup table, under SQL semantics, and the
rows that the two rules, the planner and the executor give.

`Meaning` says which rows satisfy a predicate. It may be any that treats `AND` as a
conjunction, reads columns from their rows, and lets a predicate on columns of the lookup
table depend on the row of the table only.
-/

namespace LaminarDB.Sql.Lookup

open Library

/-- What the expressions of a query mean: when a predicate is true of a row, and the value
of a key. -/
structure Meaning (streamColumns lookupColumns : List String) (resolvesQualified : Bool) where
  holds : Expr → JoinedRow → Bool
  value : Expr → Row → Option Int
  conjunction : ∀ left right row,
    holds (.binary left .and right) row = (holds left row && holds right row)
  columnValue : ∀ relation name row, value (.column relation name) row = row name
  onLookup : (∀ name ∈ lookupColumns, name ∉ streamColumns) → ∀ predicate stream lookup,
    resolvable resolvesQualified lookupColumns predicate = true →
      holds predicate (some stream, some lookup) = holds predicate (none, some lookup)

theorem Meaning.holds_splitConjunction {streamColumns lookupColumns : List String}
    {resolvesQualified : Bool} (meaning : Meaning streamColumns lookupColumns resolvesQualified)
    {expr : Expr} {row : JoinedRow} :
    meaning.holds expr row = (splitConjunction expr).all fun part => meaning.holds part row := by
  fun_induction splitConjunction expr with
  | case1 left right leftHypothesis rightHypothesis =>
    rw [meaning.conjunction, leftHypothesis, rightHypothesis, List.all_append]
  | case2 other notAnd => simp

/-- How DataFusion displays expressions, the pushdown mode of the source, and whether qualified
columns are found in a schema without qualifiers. -/
structure Engine where
  text : Expr → String
  mode : Option PlanPushdownMode
  resolvesQualified : Bool

/-- A join of a stream with a lookup table, with at least one equality, and the filter
above it. -/
structure LookupQuery where
  join : JoinPlan
  predicate : Option Expr
  lookupTables : List String
  lookupIsRight : Bool
  table : String
  isLookup : detectLookupSide lookupTables join = some (lookupIsRight, table)
  hasKeys : join.on ≠ []

namespace LookupQuery

variable (query : LookupQuery)

def streamFields : List Field := (query.join.stream query.lookupIsRight).fields

def lookupFields : List Field := (query.join.lookup query.lookupIsRight).fields

def keys : List (Expr × Expr) := query.join.keys query.lookupIsRight

def conjunctsOf : Option Expr → List Expr
  | none => []
  | some expr => splitConjunction expr

/-- The conjuncts of the rest of `ON` and of `WHERE`. -/
def conjuncts : List Expr := conjunctsOf query.join.filter ++ conjunctsOf query.predicate

abbrev Meaning (engine : Engine) : Type :=
  Lookup.Meaning (names query.streamFields) (names query.lookupFields) engine.resolvesQualified

end LookupQuery

def equalCells (first second : Option Int) : Bool :=
  match first, second with
  | some one, some two => one == two
  | _, _ => false

section

variable (matching : Row → Row → Bool)

def innerRows (stream table : List Row) : List JoinedRow :=
  stream.flatMap fun row => (table.filter (matching row)).map fun found => (some row, some found)

def streamOuterRows (stream table : List Row) : List JoinedRow :=
  stream.flatMap fun row =>
    if (table.filter (matching row)).isEmpty then [(some row, none)]
    else (table.filter (matching row)).map fun found => (some row, some found)

def lookupOuterRows (stream table : List Row) : List JoinedRow :=
  table.flatMap fun found =>
    if (stream.filter fun row => matching row found).isEmpty then [(none, some found)]
    else (stream.filter fun row => matching row found).map fun row => (some row, some found)

end

variable {engine : Engine}

namespace LookupQuery

variable (query : LookupQuery) (meaning : query.Meaning engine)

def sameKeys (row found : Row) : Bool :=
  query.keys.all fun pair => equalCells (meaning.value pair.1 row) (meaning.value pair.2 found)

def matching (row found : Row) : Bool :=
  query.sameKeys meaning row found &&
    query.join.filter.all fun filter => meaning.holds filter (some row, some found)

def admits (row : JoinedRow) : Bool := query.predicate.all fun expr => meaning.holds expr row

def rows (table stream : List Row) : List JoinedRow :=
  let joined :=
    match query.join.joinType, query.lookupIsRight with
    | .inner, _ => innerRows (query.matching meaning) stream table
    | .left, true => streamOuterRows (query.matching meaning) stream table
    | .left, false => lookupOuterRows (query.matching meaning) stream table
    | .right, true => lookupOuterRows (query.matching meaning) stream table
    | .right, false => streamOuterRows (query.matching meaning) stream table
  joined.filter (query.admits meaning)

end LookupQuery

inductive LookupKind where
  | snapshot
  | onDemand (keyColumns : List Field) (source : SourceState)
  | versioned (keyColumns : List String) (streamTimeColumn : String)
deriving DecidableEq

namespace RegisteredLookup

def kind : RegisteredLookup → LookupKind
  | .snapshot _ => .snapshot
  | .onDemand keyColumns source _ => .onDemand keyColumns source
  | .versioned keyColumns streamTimeColumn _ => .versioned keyColumns streamTimeColumn

def table (time : Int) : RegisteredLookup → List Row
  | .snapshot rows => rows
  | .onDemand _ _ entries => entries.map Entry.row
  | .versioned keyColumns _ versions => visible keyColumns time versions

/-- A partial table has one row for a key, and without a source only what is cached. -/
def Valid : RegisteredLookup → Prop
  | .snapshot _ => True
  | .onDemand keyColumns source entries =>
    (entries.map fun entry => keyOf (names keyColumns) entry.row).Nodup ∧
      (source = .absent → ∀ entry ∈ entries, entry.cached = true)
  | .versioned _ _ _ => True

def AtTime (time : Int) (stream : List Row) : RegisteredLookup → Prop
  | .versioned _ streamTimeColumn _ => ∀ row ∈ stream, row streamTimeColumn = some time
  | _ => True

end RegisteredLookup

namespace LookupQuery

variable (query : LookupQuery) (meaning : query.Meaning engine)

/-- The two rules, the planner and the executor. A join that is not rewritten is run by
DataFusion. -/
def execute (registered : RegisteredLookup) (time : Int) (stream : List Row) :
    Except String (List JoinedRow) := do
  match ← rewriteJoin engine.text query.lookupTables query.join with
  | none => return query.rows meaning (registered.table time) stream
  | some node =>
    let split := node.splitPredicates engine.mode query.predicate
    let executor ← planExtension engine.text engine.resolvesQualified
      (fun predicate found => meaning.holds predicate (none, some found)) split registered
    executor.run split.joinType stream

variable (engine) in
/-- For all contents of the table, rows of the stream and meanings of the expressions, planning
gives the rows of the query. -/
def Preserved (kind : LookupKind) : Prop :=
  ∀ registered : RegisteredLookup, registered.kind = kind → registered.Valid →
    ∀ (meaning : query.Meaning engine) (time : Int) (stream : List Row),
      registered.AtTime time stream →
        ∃ rows, query.execute meaning registered time stream = .ok rows ∧
          rows.Perm (query.rows meaning (registered.table time) stream)

end LookupQuery

end LaminarDB.Sql.Lookup
