import LaminarDB.Library.Maps
import LaminarDB.Library.Result
import LaminarDB.Sql.LookupPlan

/-!
# Execution of lookup joins

`LookupJoinExtensionPlanner` and the three executors it builds. Cells are integers or
null, and the encoding of keys by `RowConverter` is injective, so keys are compared as lists
of cells. An index of a column is its name.

`evaluate` is how DataFusion evaluates a predicate on a row of the lookup table, and
`resolvesQualified` says whether it finds a column that is written with a qualifier in a
schema that has none.
-/

namespace LaminarDB.Sql.Lookup

open Library

abbrev Row := String → Option Int

section

variable (columns : List String)

def keyOf (row : Row) : List (Option Int) := columns.map row

def hasNull (key : List (Option Int)) : Bool := key.any Option.isNone

/-- `HashIndex`: the rows of each key, in their order. -/
abbrev HashIndex := KeyedMap (List (Option Int)) (List Row)

def HashIndex.add (index : HashIndex) (row : Row) : HashIndex :=
  index.insert (keyOf columns row) ((index.find? (keyOf columns row)).getD [] ++ [row])

def HashIndex.build (rows : List Row) (columns : List String) : HashIndex :=
  rows.foldl (HashIndex.add columns) .empty

def HashIndex.probe (index : HashIndex) (key : List (Option Int)) : List Row :=
  (index.find? key).getD []

structure Version where
  timestamp : Option Int
  row : Row

/-- `VersionedIndex`: the rows of each version of each key. -/
abbrev VersionedIndex := KeyedMap (List (Option Int)) (SortedMap Int (List Row))

def VersionedIndex.add (index : VersionedIndex) (version : Version) : VersionedIndex :=
  match version.timestamp with
  | none => index
  | some timestamp =>
    if hasNull (keyOf columns version.row) then index
    else
      let versions := (index.find? (keyOf columns version.row)).getD .empty
      index.insert (keyOf columns version.row)
        (versions.insert timestamp ((versions.find? timestamp).getD [] ++ [version.row]))

end

def VersionedIndex.build (versions : List Version) (columns : List String) : VersionedIndex :=
  versions.foldl (VersionedIndex.add columns) .empty

/-- `VersionedIndex::probe_at_time`: the last row of the latest version up to a time. -/
def VersionedIndex.probeAtTime (index : VersionedIndex) (key : List (Option Int)) (time : Int) :
    Option Row :=
  (index.find? key).bind fun versions =>
    ((versions.entries.filter fun entry => entry.1 ≤ time).getLast?).bind fun entry =>
      entry.2.getLast?

inductive SourceState where
  | absent
  | answering
  | failing
deriving DecidableEq

structure Entry where
  row : Row
  cached : Bool

/-- `RegisteredLookup`, with the key columns it is indexed by. -/
inductive RegisteredLookup where
  | snapshot (rows : List Row)
  | onDemand (keyColumns : List Field) (source : SourceState) (entries : List Entry)
  | versioned (keyColumns : List String) (streamTimeColumn : String) (versions : List Version)

/-- What the cache and the source have for a key. A failure of the source is logged and
counts as a miss. -/
def fetch (keyColumns : List Field) (source : SourceState) (entries : List Entry)
    (key : List (Option Int)) : Option Row :=
  match entries.find? fun entry => keyOf (names keyColumns) entry.row == key with
  | none => none
  | some entry => if entry.cached || source == .answering then some entry.row else none

def findField (fields : List Field) (name : String) : Option Field :=
  fields.find? fun field => field.name == name

def resolveStreamKeys (text : Expr → String) (fields : List Field) (keys : List JoinKeyPair) :
    Except String (List Field) :=
  Result.collect (fun pair =>
    match pair.streamExpr with
    | .column _ name =>
      match findField fields name with
      | some field => .ok field
      | none => .error ("stream key column '" ++ name ++ "' not found in physical schema")
    | other =>
      .error ("lookup join requires column references as stream keys, got: " ++ text other))
    keys

def resolveLookupKeys (fields : List Field) (keys : List JoinKeyPair) :
    Except String (List Field) :=
  Result.collect (fun pair =>
    match findField fields pair.lookupColumn with
    | some field => .ok field
    | none =>
      .error ("lookup key column '" ++ pair.lookupColumn ++ "' not found in lookup table schema"))
    keys

/-- The key types of stream and table agree, where a message names the join. -/
def checkKeyTypes (message : String) (streamKeys lookupKeys : List Field) : Except String Unit :=
  if (streamKeys.zip lookupKeys).all fun pair => pair.1.dataType == pair.2.dataType then .ok ()
  else .error (message ++ " join key type mismatch")

mutual

/-- Whether every column of a predicate is found in the schema of the lookup table. -/
def resolvable (resolvesQualified : Bool) (columns : List String) : Expr → Bool
  | .column relation name => (relation.isNone || resolvesQualified) && columns.contains name
  | .literal _ => true
  | .binary left _ right =>
    resolvable resolvesQualified columns left && resolvable resolvesQualified columns right
  | .not inner => resolvable resolvesQualified columns inner
  | .node _ operands => allResolvable resolvesQualified columns operands
  | .other _ => false

def allResolvable (resolvesQualified : Bool) (columns : List String) : List Expr → Bool
  | [] => true
  | operand :: operands =>
    resolvable resolvesQualified columns operand && allResolvable resolvesQualified columns operands

end

variable (resolvesQualified : Bool) (evaluate : Expr → Row → Bool)

def applyPushdownPredicates
    (columns : List String) (predicates : List Expr) (rows : List Row) : Except String (List Row) :=
  if predicates.all (resolvable resolvesQualified columns) then
    .ok (rows.filter fun row => predicates.all fun predicate => evaluate predicate row)
  else .error "No field named"

/-- `LookupJoinExec`, `PartialLookupJoinExec` or `VersionedLookupJoinExec`. -/
inductive Executor where
  | snapshot (streamKeys : List Field) (index : HashIndex)
  | onDemand (streamKeys keyColumns : List Field) (source : SourceState) (entries : List Entry)
  | versioned (streamKeys : List Field) (streamTimeColumn : String) (index : VersionedIndex)

def snapshotRows (node : LookupJoinNode) (rows : List Row) : Except String (List Row) :=
  if node.pushdownPredicates.isEmpty || rows.isEmpty then .ok rows
  else
    applyPushdownPredicates resolvesQualified evaluate (names node.lookupSchema)
      node.pushdownPredicates rows

/-- `plan_extension`. The local predicates of the node are not used. -/
def planExtension (text : Expr → String) (resolvesQualified : Bool)
    (evaluate : Expr → Row → Bool) (node : LookupJoinNode) :
    RegisteredLookup → Except String Executor
  | .onDemand keyColumns source entries => do
      let streamKeys ← resolveStreamKeys text node.input.fields node.joinKeys
      return .onDemand streamKeys keyColumns source entries
  | .snapshot rows => do
      let lookupKeys ← resolveLookupKeys node.lookupSchema node.joinKeys
      let indexed ← snapshotRows resolvesQualified evaluate node rows
      let streamKeys ← resolveStreamKeys text node.input.fields node.joinKeys
      checkKeyTypes "Lookup" streamKeys lookupKeys
      return .snapshot streamKeys (.build indexed (names lookupKeys))
  | .versioned keyColumns streamTimeColumn versions => do
      let lookupKeys ← resolveLookupKeys node.lookupSchema node.joinKeys
      let streamKeys ← resolveStreamKeys text node.input.fields node.joinKeys
      checkKeyTypes "Temporal" streamKeys lookupKeys
      match findField node.input.fields streamTimeColumn with
      | some _ => return .versioned streamKeys streamTimeColumn (.build versions keyColumns)
      | none =>
        .error ("stream time column '" ++ streamTimeColumn ++ "' not found in stream schema")

/-- The rows that `probe_batch`, `probe_partial_batch_with_fallback` or
`probe_versioned_batch` finds for a row of the stream. -/
def Executor.matches : Executor → Row → List Row
  | .snapshot streamKeys index, row =>
    if hasNull (keyOf (names streamKeys) row) then []
    else index.probe (keyOf (names streamKeys) row)
  | .onDemand streamKeys keyColumns source entries, row =>
    if hasNull (keyOf (names streamKeys) row) then []
    else (fetch keyColumns source entries (keyOf (names streamKeys) row)).toList
  | .versioned streamKeys streamTimeColumn index, row =>
    match row streamTimeColumn with
    | none => []
    | some time =>
      if hasNull (keyOf (names streamKeys) row) then []
      else (index.probeAtTime (keyOf (names streamKeys) row) time).toList

/-- `convert_columns` fails for a partial table whose key has other columns than the join. -/
def Executor.check : Executor → Except String Unit
  | .onDemand streamKeys keyColumns _ _ =>
    if streamKeys.map Field.dataType = keyColumns.map Field.dataType then .ok ()
    else .error "RowConverter column schema mismatch"
  | _ => .ok ()

/-- A row of the stream with a row of the table; one of them may be missing. -/
abbrev JoinedRow := Option Row × Option Row

def emit (joinType : LookupJoinType) (row : Row) (found : List Row) : List JoinedRow :=
  match joinType, found with
  | .leftOuter, [] => [(some row, none)]
  | _, found => found.map fun match_ => (some row, some match_)

def Executor.run (executor : Executor) (joinType : LookupJoinType) (stream : List Row) :
    Except String (List JoinedRow) := do
  if stream.isEmpty then return []
  executor.check
  return stream.flatMap fun row => emit joinType row (executor.matches row)

end LaminarDB.Sql.Lookup
