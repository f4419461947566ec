import LaminarDB.Library.Maps
import LaminarDB.State.Scalar

/-!
# Aggregates by group

The accumulators of a query's aggregate functions by group key, and `IncrementalAggState`.

Accumulators, arrays and casts belong to the query engine. They are the functions of an
`Engine`, and nothing is assumed of them here.
-/

namespace LaminarDB.State

open Library Result

structure Column where
  dataType : DataType
  values : List ScalarValue
deriving DecidableEq

abbrev RecordBatch := List Column

/-- The functions of the query engine. An update that fails may have changed the
accumulator. -/
structure Engine (Acc Input : Type) where
  update : Acc → List Input → Acc × Option String
  state : Acc → Except String (List ScalarValue)
  merge : Acc → List Column → Except String Acc
  evaluate : Acc → Except String ScalarValue
  toArray : ScalarValue → Except String Column
  iterToArray : List ScalarValue → Except String Column
  castScalar : ScalarValue → DataType → Option ScalarValue
  castColumn : Column → DataType → Option Column
  tryNew : List DataType → List Column → Except String RecordBatch

/-- How accumulators of an aggregate function are made, what they read of a row, and which rows pass
its filter. -/
structure AggFuncSpec (Acc Input Row : Type) where
  name : String
  create : Except String Acc
  input : Row → Input
  filter : Option (Row → Bool)
  returnType : DataType

abbrev GroupKey := List ScalarValue

abbrev Groups (Acc : Type) := KeyedMap GroupKey (List Acc)

section Accumulators

variable {Acc Input Row : Type} (engine : Engine Acc Input)

def AggFuncSpec.createAccumulator (spec : AggFuncSpec Acc Input Row) : Except DbError Acc :=
  spec.create.mapError fun error =>
    .pipeline ("accumulator creation failed for '" ++ spec.name ++ "': " ++ error)

def createAccumulators (specs : List (AggFuncSpec Acc Input Row)) : Except DbError (List Acc) :=
  collect AggFuncSpec.createAccumulator specs

/-- `update_group_accumulators`: the accumulators before one that fails stay updated. -/
def updateGroupAccumulators (rows : List Row) :
    List (AggFuncSpec Acc Input Row) → List Acc → List Acc × Option DbError
  | spec :: specs, acc :: accs =>
    let passed := (spec.filter.elim rows rows.filter).map spec.input
    match engine.update acc passed with
    | (acc, some error) => (acc :: accs, some (.pipeline ("accumulator update: " ++ error)))
    | (acc, none) =>
      let (accs, error) := updateGroupAccumulators rows specs accs
      (acc :: accs, error)
  | _, accs => (accs, none)

/-- `row_to_scalar_key_with_types`: each scalar is cast to the type of its column if it
can be. -/
def rowToScalarKeyWithTypes (key : GroupKey) (groupTypes : List DataType) : GroupKey :=
  key.zipWith (fun scalar dataType =>
    if scalar.dataType = dataType then scalar
    else (engine.castScalar scalar dataType).getD scalar) groupTypes

/-- The rows by key. The source walks the groups in the order of a hash table; here it is that of
their first rows. -/
def groupRows {Key : Type} [DecidableEq Key] (key : Row → Key) (rows : List Row) :
    List (Key × List Row) :=
  (rows.foldl (fun (grouped : KeyedMap Key (List Row)) row =>
    grouped.insert (key row) ((grouped.find? (key row)).getD [] ++ [row])) .empty).entries

/-- The rows of a group are added to its accumulators; without room for a new group they are
dropped. -/
def updateGroup (specs : List (AggFuncSpec Acc Input Row)) (room : Groups Acc → Bool)
    (groups : Groups Acc) (key : GroupKey) (rows : List Row) : Groups Acc × Option DbError :=
  match groups.find? key with
  | some accs =>
    let (accs, error) := updateGroupAccumulators engine rows specs accs
    (groups.insert key accs, error)
  | none =>
    if room groups then
      match createAccumulators specs with
      | .error error => (groups, some error)
      | .ok accs =>
        let (accs, error) := updateGroupAccumulators engine rows specs accs
        (groups.insert key accs, error)
    else (groups, none)

variable (label : String)

def buildColumn (dataType : DataType) (scalars : List ScalarValue) : Except DbError Column :=
  match engine.iterToArray scalars with
  | .error error => .error (.pipeline (label ++ ": " ++ error))
  | .ok column =>
    .ok (if column.dataType = dataType then column
      else (engine.castColumn column dataType).getD column)

def evaluateAccumulator (acc : Acc) : Except DbError ScalarValue :=
  (engine.evaluate acc).mapError fun error => .pipeline (label ++ ": " ++ error)

def keyColumn (keys : List GroupKey) (index : Nat) : List ScalarValue :=
  keys.filterMap fun key => key[index]?

end Accumulators

/-- The fixed part of an aggregate query; `key` reads the group columns of a pre-aggregated row. -/
structure AggQuery (Acc Input Row : Type) where
  key : Row → GroupKey
  groupTypes : List DataType
  aggSpecs : List (AggFuncSpec Acc Input Row)
  maxGroups : Nat

namespace IncrementalAggState

variable {Acc Input Row : Type} (engine : Engine Acc Input) (query : AggQuery Acc Input Row)

/-- The grouped rows of a batch, one group after the other up to the first error. -/
def processGroups : Groups Acc → List (GroupKey × List Row) → Groups Acc × Option DbError
  | groups, [] => (groups, none)
  | groups, (rowKey, rows) :: rest =>
    let key := rowToScalarKeyWithTypes engine rowKey query.groupTypes
    match updateGroup engine query.aggSpecs (fun groups => groups.size < query.maxGroups)
        groups key rows with
    | (groups, some error) => (groups, some error)
    | (groups, none) => processGroups groups rest

variable (groups : Groups Acc)

def processBatchNoGroups (rows : List Row) : Groups Acc × Option DbError :=
  updateGroup engine query.aggSpecs (fun _ => true) groups [] rows

def processBatch (rows : List Row) : Groups Acc × Option DbError :=
  if rows.isEmpty then (groups, none)
  else if query.groupTypes.isEmpty then processBatchNoGroups engine query groups rows
  else processGroups engine query groups (groupRows query.key rows)

end IncrementalAggState

def sumEngine : Engine Int64 Int64 where
  update acc inputs := (inputs.foldl (· + ·) acc, none)
  state acc := .ok [.primitive (.int64 (some acc))]
  merge acc arrays :=
    match arrays with
    | [⟨_, [.primitive (.int64 (some value))]⟩] => .ok (acc + value)
    | _ => .error "unexpected state"
  evaluate acc := .ok (.primitive (.int64 (some acc)))
  toArray scalar := .ok ⟨scalar.dataType, [scalar]⟩
  iterToArray scalars :=
    match scalars with
    | [] => .error "empty iterator"
    | first :: rest =>
      if rest.all fun scalar => scalar.dataType = first.dataType then
        .ok ⟨first.dataType, scalars⟩
      else .error "inconsistent types"
  castScalar _ _ := none
  castColumn _ _ := none
  tryNew _ columns := .ok columns

def sumSpec : AggFuncSpec Int64 Int64 (ScalarValue × Int64) where
  name := "sum"
  create := .ok 0
  input := Prod.snd
  filter := none
  returnType := .int64

end LaminarDB.State
