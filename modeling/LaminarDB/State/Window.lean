import LaminarDB.State.Aggregate
import LaminarDB.State.WindowAssigner

/-!
# Aggregates by window and group

The window operator `CoreWindowState` with its tumbling, hopping and session windows.

Every function that can fail also returns the state that it leaves behind.
-/

namespace LaminarDB.State

open Library Result

variable {Acc Input Row : Type} (engine : Engine Acc Input)

abbrev Windows (Acc : Type) := SortedMap I64 (Groups Acc)

/-- The part of a windowed query that does not change. `time` reads the event time of a
row, or fails if the time column has an unsupported type. -/
structure WindowQuery (Acc Input Row : Type) where
  key : Row → GroupKey
  time : Except DbError (Row → I64)
  groupTypes : List DataType
  aggSpecs : List (AggFuncSpec Acc Input Row)
  outputTypes : List DataType
  maxGroupsPerWindow : Nat
  allowedLatenessMs : I64
  postProjection : List RecordBatch → Except DbError (List RecordBatch)

namespace Windows

variable (query : WindowQuery Acc Input Row) (assign : I64 → List I64)

/-- The rows with an event time, once for each of their windows, by window and group. -/
def assignRows (time : Row → I64) (rows : List Row) : List ((I64 × GroupKey) × List Row) :=
  let assigned := rows.flatMap fun row =>
    if time row = nullTimestamp then []
    else (assign (time row)).map fun start => (start, row)
  (groupRows (fun item => (item.1, query.key item.2)) assigned).map fun group =>
    (group.1, group.2.map Prod.snd)

/-- The rows of one window and group; the window is opened even if the group is not. -/
def updateWindow (room : Groups Acc → Bool) (windows : Windows Acc) (start : I64)
    (key : GroupKey) (rows : List Row) : Windows Acc × Option DbError :=
  let (groups, error) :=
    updateGroup engine query.aggSpecs room ((windows.find? start).getD .empty) key rows
  (windows.insert start groups, error)

/-- The number of groups of a window is bounded if there are group columns at all. -/
def hasRoom (groups : Groups Acc) : Bool :=
  query.groupTypes.isEmpty || groups.size < query.maxGroupsPerWindow

def updateWindows : Windows Acc → List ((I64 × GroupKey) × List Row) →
    Windows Acc × Option DbError
  | windows, [] => (windows, none)
  | windows, ((start, rowKey), rows) :: rest =>
    let key := rowToScalarKeyWithTypes engine rowKey query.groupTypes
    match updateWindow engine query (hasRoom query) windows start key rows with
    | (windows, some error) => (windows, some error)
    | (windows, none) => updateWindows windows rest

def updateBatch (windows : Windows Acc) (rows : List Row) : Windows Acc × Option DbError :=
  if rows.isEmpty then (windows, none)
  else
    match query.time with
    | .error error => (windows, some error)
    | .ok time => updateWindows engine query windows (assignRows query assign time rows)

def int64Column (values : List I64) : Column where
  dataType := .int64
  values := values.map fun value => .primitive (.int64 (some (.ofInt value.toInt)))

def emitWindowBatch (windowStart windowEnd : I64) (groups : Groups Acc) :
    Except DbError (Option RecordBatch) :=
  if groups.entries.isEmpty then .ok none
  else do
    let evaluated ← collect (fun (group : GroupKey × List Acc) =>
      collect (evaluateAccumulator engine "accumulator evaluate") group.2) groups.entries
    let groupArrays ← collect (fun (column : DataType × Nat) =>
      buildColumn engine "group key array" column.1 (keyColumn groups.keys column.2))
      query.groupTypes.zipIdx
    let aggArrays ← collect (fun (column : AggFuncSpec Acc Input Row × Nat) =>
      buildColumn engine "agg result array" column.1.returnType
        (evaluated.filterMap fun scalars => scalars[column.2]?))
      query.aggSpecs.zipIdx
    let windowStarts := int64Column (groups.entries.map fun _ => windowStart)
    let windowEnds := int64Column (groups.entries.map fun _ => windowEnd)
    match engine.tryNew query.outputTypes
        (windowStarts :: windowEnds :: (groupArrays ++ aggArrays)) with
    | .error error => .error (.pipeline ("result batch build: " ++ error))
    | .ok batch => .ok (some batch)

def closesAt (sizeMs start : I64) : I64 :=
  (start.saturatingAdd sizeMs).saturatingAdd query.allowedLatenessMs

/-- The windows are removed one after the other up to the first that cannot be emitted. -/
def closeEach (sizeMs : I64) : Windows Acc → List (I64 × Groups Acc) →
    Windows Acc × Except DbError (List RecordBatch)
  | windows, [] => (windows, .ok [])
  | windows, (start, groups) :: rest =>
    let windows := windows.erase start
    match emitWindowBatch engine query start (start.saturatingAdd sizeMs) groups with
    | .error error => (windows, .error error)
    | .ok batch =>
      let (windows, batches) := closeEach sizeMs windows rest
      (windows, batches.map (batch.toList ++ ·))

/-- `close_fixed_windows`: the earliest windows, as far as they are closed. -/
def closeFixedWindows (sizeMs : I64) (windows : Windows Acc) (watermark : I64) :
    Windows Acc × Except DbError (List RecordBatch) :=
  closeEach engine query sizeMs windows
    (windows.entries.takeWhile fun entry => closesAt query sizeMs entry.1 ≤ watermark)

end Windows

structure SessionAccState (Acc : Type) where
  start : I64
  stop : I64
  accs : List Acc

abbrev Sessions (Acc : Type) := SortedMap I64 (SessionAccState Acc)

abbrev SessionGroups (Acc : Type) := KeyedMap GroupKey (Sessions Acc)

namespace Sessions

variable (query : WindowQuery Acc Input Row) (sessions : Sessions Acc)

/-- The sessions that a session from `newStart` to `newEnd` overlaps. -/
def overlapping (newStart newEnd : I64) : List (I64 × SessionAccState Acc) :=
  sessions.entries.filter fun entry => entry.1 ≤ newEnd && newStart ≤ entry.2.stop

/-- The states of a session's accumulators are merged into those of the survivor. -/
def mergeAccs : List Acc → List Acc → Except DbError (List Acc)
  | survivor :: survivors, acc :: accs => do
      let scalars ← (engine.state acc).mapError fun error =>
        DbError.pipeline ("session merge state: " ++ error)
      let arrays ← collect (fun scalar => (engine.toArray scalar).mapError fun error =>
        DbError.pipeline ("session merge array: " ++ error)) scalars
      let merged ← (engine.merge survivor arrays).mapError fun error =>
        DbError.pipeline ("session merge: " ++ error)
      let rest ← mergeAccs survivors accs
      .ok (merged :: rest)
  | survivors, _ => .ok survivors

/-- The overlapping sessions are removed one after the other and merged into the first.
The sessions removed before an error are lost. -/
def mergeSessions : Sessions Acc → SessionAccState Acc → List (I64 × SessionAccState Acc) →
    Sessions Acc × Except DbError (SessionAccState Acc)
  | sessions, merged, [] => (sessions, .ok merged)
  | sessions, merged, (start, session) :: rest =>
    let sessions := sessions.erase start
    match mergeAccs engine merged.accs session.accs with
    | .error error => (sessions, .error error)
    | .ok accs =>
      mergeSessions sessions
        { start := min merged.start session.start, stop := max merged.stop session.stop, accs }
        rest

def openSession (time newEnd : I64) (row : Row) : Sessions Acc × Option DbError :=
  match createAccumulators query.aggSpecs with
  | .error error => (sessions, some error)
  | .ok accs =>
    match updateGroupAccumulators engine [row] query.aggSpecs accs with
    | (_, some error) => (sessions, some error)
    | (accs, none) => (sessions.insert time { start := time, stop := newEnd, accs }, none)

/-- A row that overlaps one session extends it. If an accumulator fails, the session
stays under its former start. -/
def extendSession (start : I64) (session : SessionAccState Acc)
    (time newEnd : I64) (row : Row) : Sessions Acc × Option DbError :=
  let merged accs := { start := min session.start time, stop := max session.stop newEnd, accs }
  match updateGroupAccumulators engine [row] query.aggSpecs session.accs with
  | (accs, some error) => (sessions.insert start (merged accs), some error)
  | (accs, none) =>
    ((sessions.erase start).insert (merged accs).start (merged accs), none)

def joinSessions (start : I64) (session : SessionAccState Acc)
    (rest : List (I64 × SessionAccState Acc)) (time newEnd : I64) (row : Row) :
    Sessions Acc × Option DbError :=
  let first :=
    { start := min time session.start, stop := max newEnd session.stop, accs := session.accs }
  match mergeSessions engine (sessions.erase start) first rest with
  | (sessions, .error error) => (sessions, some error)
  | (sessions, .ok merged) =>
    match updateGroupAccumulators engine [row] query.aggSpecs merged.accs with
    | (_, some error) => (sessions, some error)
    | (accs, none) => (sessions.insert merged.start { merged with accs }, none)

/-- `update_session_window` on the sessions of the row's group. -/
def update (time gapMs : I64) (row : Row) : Sessions Acc × Option DbError :=
  let newEnd := time.saturatingAdd gapMs
  match sessions.overlapping time newEnd with
  | [] => openSession engine query sessions time newEnd row
  | [(start, session)] => extendSession engine query sessions start session time newEnd row
  | (start, session) :: rest =>
    joinSessions engine query sessions start session rest time newEnd row

/-- A row is added to the sessions of its group; the group is made with its first
session. -/
def updateRow (groups : SessionGroups Acc) (time gapMs : I64) (row : Row) :
    SessionGroups Acc × Option DbError :=
  let key := query.key row
  match groups.find? key with
  | some sessions =>
    let (sessions, error) := update engine query sessions time gapMs row
    (groups.insert key sessions, error)
  | none =>
    match update engine query .empty time gapMs row with
    | (_, some error) => (groups, some error)
    | (sessions, none) => (groups.insert key sessions, none)

def updateRows (gapMs : I64) (time : Row → I64) :
    SessionGroups Acc → List Row → SessionGroups Acc × Option DbError
  | groups, [] => (groups, none)
  | groups, row :: rows =>
    if time row = nullTimestamp then updateRows gapMs time groups rows
    else
      match updateRow engine query groups (time row) gapMs row with
      | (groups, some error) => (groups, some error)
      | (groups, none) => updateRows gapMs time groups rows

/-- `update_batch_session`. -/
def updateBatch (gapMs : I64) (groups : SessionGroups Acc) (rows : List Row) :
    SessionGroups Acc × Option DbError :=
  if rows.isEmpty then (groups, none)
  else
    match query.time with
    | .error error => (groups, some error)
    | .ok time => updateRows engine query gapMs time groups rows

def closed (watermark : I64) (session : SessionAccState Acc) : Bool :=
  session.stop.saturatingAdd query.allowedLatenessMs ≤ watermark

def closedRows (groups : SessionGroups Acc) (watermark : I64) :
    List (GroupKey × SessionAccState Acc) :=
  (groups.entries.flatMap fun group =>
    (group.2.entries.filter fun entry => closed query watermark entry.2).map fun entry =>
      (group.1, entry.2)).mergeSort
    fun left right => left.2.start < right.2.start ||
      (left.2.start == right.2.start && left.2.stop ≤ right.2.stop)

def emitRows (rows : List (GroupKey × SessionAccState Acc)) :
    Except DbError (List RecordBatch) := do
  let evaluated ← collect (fun (row : GroupKey × SessionAccState Acc) =>
    collect (evaluateAccumulator engine "session accumulator evaluate") row.2.accs) rows
  let groupArrays ← collect (fun (column : DataType × Nat) =>
    buildColumn engine "group key array" column.1 (keyColumn (rows.map Prod.fst) column.2))
    query.groupTypes.zipIdx
  let aggArrays ← collect (fun (column : AggFuncSpec Acc Input Row × Nat) =>
    buildColumn engine "agg result array" column.1.returnType
      (evaluated.filterMap fun scalars => scalars[column.2]?))
    query.aggSpecs.zipIdx
  let windowStarts := Windows.int64Column (rows.map fun row => row.2.start)
  let windowEnds := Windows.int64Column (rows.map fun row => row.2.stop)
  match engine.tryNew query.outputTypes
      (windowStarts :: windowEnds :: (groupArrays ++ aggArrays)) with
  | .error error => .error (.pipeline ("session result batch: " ++ error))
  | .ok batch => .ok [batch]

def keepOpen (watermark : I64) (sessions : Sessions Acc) : Sessions Acc where
  entries := sessions.entries.filter fun entry => !closed query watermark entry.2
  sorted := sessions.sorted.sublist (List.filter_sublist.map _)

/-- `close_session_windows`; a group without sessions is removed when some session of
any group is closed. -/
def closeSessionWindows (groups : SessionGroups Acc) (watermark : I64) :
    SessionGroups Acc × Except DbError (List RecordBatch) :=
  let rows := closedRows query groups watermark
  if rows.isEmpty then (groups, .ok [])
  else
    let left := groups.mapValues (keepOpen query watermark)
    ({ entries := left.entries.filter fun group => !group.2.entries.isEmpty
       unique := left.unique.sublist (List.filter_sublist.map _) },
      emitRows engine query rows)

end Sessions

inductive CoreWindowAssigner where
  | tumbling (assigner : TumblingWindowAssigner)
  | hopping (assigner : SlidingWindowAssigner)
  | session (gapMs : I64)
deriving DecidableEq

inductive WindowInput (Row : Type) where
  | rows (rows : List Row)
  | watermark (watermark : I64)

structure CoreWindowState (Acc : Type) where
  windows : Windows Acc
  sessionGroups : SessionGroups Acc

namespace CoreWindowState

variable (query : WindowQuery Acc Input Row) (assigner : CoreWindowAssigner)

def fresh : CoreWindowState Acc where
  windows := .empty
  sessionGroups := .empty

variable (state : CoreWindowState Acc)

def updateBatch (rows : List Row) : CoreWindowState Acc × Option DbError :=
  match assigner with
  | .tumbling assigner =>
    let (windows, error) := Windows.updateBatch engine query
      (fun timestamp => [assigner.assign timestamp]) state.windows rows
    ({ state with windows }, error)
  | .hopping assigner =>
    let (windows, error) :=
      Windows.updateBatch engine query assigner.assignWindows state.windows rows
    ({ state with windows }, error)
  | .session gapMs =>
    let (sessionGroups, error) := Sessions.updateBatch engine query gapMs state.sessionGroups rows
    ({ state with sessionGroups }, error)

def closeWindows (watermark : I64) : CoreWindowState Acc × Except DbError (List RecordBatch) :=
  match assigner with
  | .tumbling assigner =>
    let (windows, batches) :=
      Windows.closeFixedWindows engine query assigner.sizeMs state.windows watermark
    ({ state with windows }, batches.bind query.postProjection)
  | .hopping assigner =>
    let (windows, batches) :=
      Windows.closeFixedWindows engine query assigner.sizeMs state.windows watermark
    ({ state with windows }, batches.bind query.postProjection)
  | .session _ =>
    let (sessionGroups, batches) :=
      Sessions.closeSessionWindows engine query state.sessionGroups watermark
    ({ state with sessionGroups }, batches.bind query.postProjection)

end CoreWindowState

def windowQuery (groupType : DataType) : WindowQuery Int64 Int64 (ScalarValue × Int64) where
  key row := [row.1]
  time := .ok fun row => .clamp row.2.toInt
  groupTypes := [groupType]
  aggSpecs := [sumSpec]
  outputTypes := [.int64, .int64, groupType, .int64]
  maxGroupsPerWindow := 1000000
  allowedLatenessMs := .clamp 0
  postProjection batches := .ok batches

def rowAt (instant : Int64) : ScalarValue × Int64 := (.primitive (.int64 (some 5)), instant)

end LaminarDB.State
