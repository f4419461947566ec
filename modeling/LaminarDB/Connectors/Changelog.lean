import LaminarDB.Library.Changes

/-!
# Changelog sinks

The flush of the Postgres sink in changelog mode, and the merge of the Delta Lake sink in upsert
mode. `INSERT … ON CONFLICT`, `DELETE … ANY`, `COPY` and `MERGE` have their documented meaning.

A row of a table is the values of its key columns, none of them null, and the cells of the
other columns. Only the user columns are rows here; the operation stands beside them.
-/

namespace LaminarDB.Connectors.Changelog

open Library

structure KeyedColumns where
  columns : List String
  keyColumns : List String
  hasKey : keyColumns ≠ []
  keysAmong : ∀ column ∈ keyColumns, column ∈ columns

namespace KeyedColumns

def nonKeyColumns (columns : KeyedColumns) : List String :=
  columns.columns.filter fun column => column ∉ columns.keyColumns

end KeyedColumns

variable (columns : KeyedColumns) (Value : Type)

abbrev Key := Fin columns.keyColumns.length → Value

abbrev Rest := Fin columns.nonKeyColumns.length → Option Value

abbrev Table := KeyedMap (Key columns Value) (Rest columns Value)

/-- A row of a changelog, with the cell of its `_op` column. -/
structure ChangelogRow where
  op : Option String
  key : Key columns Value
  rest : Rest columns Value

open ChangelogRow

variable {columns Value}

def isUpsert (op : Option String) : Bool := op ∈ [some "I", some "U", some "r"]

def isDelete (op : Option String) : Bool := op = some "D"

theorem isDelete_of_isUpsert {op : Option String} (upsert : isUpsert op = true) :
    isDelete op = false := by
  simp only [isUpsert, List.mem_cons, List.not_mem_nil, or_false, decide_eq_true_eq] at upsert
  rcases upsert with rfl | rfl | rfl <;> decide

namespace ChangelogRow

variable (row : ChangelogRow columns Value)

/-- What a row does to the table. A row of an unknown operation does nothing. -/
def change : Option (Change (Key columns Value) (Rest columns Value)) :=
  if isUpsert row.op then some (row.key, some row.rest)
  else if isDelete row.op then some (row.key, none)
  else none

def entry : Key columns Value × Rest columns Value :=
  (row.key, row.rest)

end ChangelogRow

def changesOf (rows : List (ChangelogRow columns Value)) :
    List (Change (Key columns Value) (Rest columns Value)) :=
  rows.filterMap change

section Statements

variable [DecidableEq Value]

inductive ConflictAction where
  | doNothing
  | doUpdate (set : List String)
deriving DecidableEq

structure UpsertSql where
  columns : List String
  conflict : List String
  action : ConflictAction
deriving DecidableEq

structure DeleteSql where
  anyOf : List String
deriving DecidableEq

def buildUpsertSql (columns : KeyedColumns) : UpsertSql where
  columns := columns.columns
  conflict := columns.keyColumns
  action := if columns.nonKeyColumns.isEmpty then .doNothing else .doUpdate columns.nonKeyColumns

def buildDeleteSql (columns : KeyedColumns) : DeleteSql where
  anyOf := columns.keyColumns

/-- `INSERT … SELECT … ON CONFLICT (key) …`. `DO UPDATE` may affect each row once. -/
def executeUnnest (sql : UpsertSql) (rows : List (Key columns Value × Rest columns Value))
    (table : Table columns Value) : Except String (Table columns Value) :=
  match sql.action with
  | .doNothing => .ok (KeyedMap.insertMissing rows table)
  | .doUpdate _ =>
    if (rows.map Prod.fst).Nodup then .ok (KeyedMap.insertAll rows table)
    else .error "ON CONFLICT DO UPDATE command cannot affect row a second time"

def Crossed (deleted : List (Key columns Value)) (key : Key columns Value) : Prop :=
  ∀ column, key column ∈ deleted.map (· column)

instance (deleted : List (Key columns Value)) (key : Key columns Value) :
    Decidable (Crossed deleted key) :=
  inferInstanceAs (Decidable (∀ column, key column ∈ deleted.map (· column)))

/-- `DELETE … WHERE k1 = ANY(…) AND k2 = ANY(…)`. -/
def executeDeletes (sql : DeleteSql) (deleted : List (Key columns Value))
    (table : Table columns Value) : Table columns Value :=
  table.filterKeys fun key => !decide (∀ column : Fin columns.keyColumns.length,
    columns.keyColumns.get column ∈ sql.anyOf → key column ∈ deleted.map (· column))

/-- `COPY`, into a table with a primary key. -/
def copyIn (rows : List (Key columns Value × Rest columns Value)) (table : Table columns Value) :
    Except String (Table columns Value) :=
  if unique : ((table.entries ++ rows).map Prod.fst).Nodup then
    .ok ⟨table.entries ++ rows, unique⟩
  else .error "duplicate key value violates unique constraint"

inductive WriteMode where
  | append
  | upsert
deriving DecidableEq

structure PostgresSinkConfig where
  writeMode : WriteMode
  changelogMode : Bool
deriving DecidableEq

def splitChangelogBatch (batch : List (ChangelogRow columns Value)) :
    List (ChangelogRow columns Value) × List (ChangelogRow columns Value) :=
  (batch.filter fun row => isUpsert row.op, batch.filter fun row => isDelete row.op)

variable (buffer : List (List (ChangelogRow columns Value))) (table : Table columns Value)

/-- `flush_changelog`: all inserts of the buffer, then all deletes. -/
def flushChangelog : Except String (Table columns Value) :=
  let allInserts := buffer.flatMap fun batch => (splitChangelogBatch batch).1
  let allDeletes := buffer.flatMap fun batch => (splitChangelogBatch batch).2
  let upserted :=
    if allInserts.isEmpty then .ok table
    else executeUnnest (buildUpsertSql columns) (allInserts.map entry) table
  upserted.map fun table =>
    if allDeletes.isEmpty then table
    else executeDeletes (buildDeleteSql columns) (allDeletes.map key) table

def flushAppend : Except String (Table columns Value) :=
  if buffer.flatten.isEmpty then .ok table
  else copyIn (buffer.flatten.map entry) table

variable (config : PostgresSinkConfig) (buffer : List (List (ChangelogRow columns Value)))
  (table : Table columns Value)

def flushUpsert : Except String (Table columns Value) :=
  if config.changelogMode then flushChangelog buffer table
  else if buffer.flatten.isEmpty then .ok table
  else executeUnnest (buildUpsertSql columns) (buffer.flatten.map entry) table

def flushToClient : Except String (Table columns Value) :=
  match config.writeMode with
  | .append => flushAppend buffer table
  | .upsert => flushUpsert config buffer table

inductive MatchedAction (Row : Type) where
  | update (row : Row)
  | delete

def actionsOn {Source Target Match : Type} [DecidableEq Match] (keyOf : Source → Match)
    (whenMatched : Source → Option (MatchedAction Target)) (source : List Source) (key : Match) :
    List (MatchedAction Target) :=
  source.filterMap fun row => if keyOf row = key then whenMatched row else none

/-- `MERGE`. It fails if a row of the target is updated or deleted by several source rows.
A source row that matches no row of the target is inserted if its clause says so. -/
def merge {Source Target Match : Type} [DecidableEq Match] (keyOf : Source → Match)
    (whenMatched : Source → Option (MatchedAction Target))
    (whenNotMatched : Source → Option Target) (source : List Source)
    (target : List (Match × Target)) : Except String (List (Match × Target)) :=
  if target.any fun row => 1 < (actionsOn keyOf whenMatched source row.1).length then
    .error "multiple source rows match one target row"
  else
    .ok (target.filterMap (fun row =>
        match actionsOn keyOf whenMatched source row.1 with
        | [] => some row
        | .update values :: _ => some (row.1, values)
        | .delete :: _ => none) ++
      source.filterMap fun row =>
        if keyOf row ∈ target.map Prod.fst then none
        else (whenNotMatched row).map (keyOf row, ·))

def mergeChangelog (source : List (ChangelogRow columns Value))
    (target : List (Key columns Value × Rest columns Value)) :
    Except String (List (Key columns Value × Rest columns Value)) :=
  if source.isEmpty then .ok target
  else
    merge key
      (fun row =>
        if isUpsert row.op then some (.update row.rest)
        else if isDelete row.op then some .delete
        else none)
      (fun row => if isUpsert row.op then some row.rest else none)
      source target

def attemptDeltaWrite (staged : List (List (ChangelogRow columns Value)))
    (target : List (Key columns Value × Rest columns Value)) :
    Except String (List (Key columns Value × Rest columns Value)) :=
  mergeChangelog staged.flatten target

end Statements

end LaminarDB.Connectors.Changelog
