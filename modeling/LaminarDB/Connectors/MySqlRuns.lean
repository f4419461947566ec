import LaminarDB.Connectors.MySql
import LaminarDB.Library.Transducer

/-!
# Polls of the MySQL change source

What a binlog changes is the output of a transducer. A poll drains some messages and
returns the rows that they change, under the columns of one table: the last one that it
reads. If no poll reads tables with different columns, the rows returned by a session are
those that the drained messages change.
-/

namespace LaminarDB.Connectors.MySql

open Library List Transducer MySqlCdcSource

structure BinlogContext where
  binlogFile : String
  gtid : Option Gtid
  tables : KeyedMap Nat TableInfo

structure RowsRead where
  table : Option TableInfo
  events : List ChangeEvent

open RowsRead

def RowsRead.columns (read : RowsRead) : Option (List String) :=
  read.table.map (·.columns)

def RowsRead.rows (read : RowsRead) : List ChangeRow :=
  read.events.map (ChangeEvent.render (read.columns.getD []))

variable {config : MySqlCdcConfig}

section

variable (config : MySqlCdcConfig)

def BinlogContext.readRows {Row : Type} (context : BinlogContext) (message : RowsMessage Row)
    (toEvents : RowsMessage Row → String → Option Gtid → List ChangeEvent) : List RowsRead :=
  if config.shouldIncludeTable message.database message.table then
    [⟨context.tables.find? message.tableId, toEvents message context.binlogFile context.gtid⟩]
  else []

def reader : Transducer BinlogContext BinlogMessage RowsRead where
  step context
    | .tableMap info => ({ context with tables := context.tables.insert info.tableId info }, [])
    | .insert message => (context, context.readRows config message insertToEvents)
    | .update message => (context, context.readRows config message updateToEvents)
    | .delete message => (context, context.readRows config message deleteToEvents)
    | .begin gtid => ({ context with gtid }, [])
    | .rotate nextBinlog _ => ({ context with binlogFile := nextBinlog }, [])
    | .commit _ => (context, [])
    | .query => (context, [])
    | .heartbeat => (context, [])

def changes (context : BinlogContext) (messages : List BinlogMessage) : List ChangeRow :=
  ((reader config).outputs context messages).flatMap rows

end

theorem changes_append {context : BinlogContext} {first second : List BinlogMessage} :
    changes config context (first ++ second) =
      changes config context first ++
        changes config ((reader config).after context first) second := by
  unfold changes
  rw [outputs_append, flatMap_append]

variable {first second messages : List BinlogMessage}

theorem changes_mono (context : BinlogContext)
    (part : first <+: second) : changes config context first <+: changes config context second := by
  obtain ⟨rest, rfl⟩ := part
  exact ⟨_, changes_append.symm⟩

def executed (start : Option GtidSet) (messages : List BinlogMessage) : Option GtidSet :=
  messages.foldl (fun set message =>
    match message with
    | .begin (some gtid) => set.map fun set => set.add gtid
    | _ => set) start

def reached (start : Option BinlogPosition) (messages : List BinlogMessage) :
    Option BinlogPosition :=
  messages.foldl (fun position message =>
    match message with
    | .commit offset => position.map fun before => { before with position := offset }
    | .rotate nextBinlog offset => some ⟨nextBinlog, offset⟩
    | _ => position) start

variable {maxRecords : Nat}

namespace MySqlCdcSource

variable {source : MySqlCdcSource}

def context (source : MySqlCdcSource) : BinlogContext :=
  ⟨source.currentBinlogFile, source.currentGtid, source.tableCache⟩

def eventCount (config : MySqlCdcConfig) (context : BinlogContext) (message : BinlogMessage) :
    Nat :=
  (((reader config).step context message).2.flatMap events).length

def takes (config : MySqlCdcConfig) (maxRecords : Nat) :
    BinlogContext → Nat → List BinlogMessage → List BinlogMessage
  | _, _, [] => []
  | context, buffered, message :: messages =>
    if buffered < maxRecords then
      message :: takes config maxRecords ((reader config).step context message).1
        (buffered + eventCount config context message) messages
    else []

theorem takes_isPart (context : BinlogContext) (buffered : Nat) :
    takes config maxRecords context buffered messages <+: messages := by
  induction messages generalizing context buffered with
  | nil => exact nil_prefix
  | cons message messages ih =>
    unfold takes
    split
    · exact cons_prefix_cons.mpr ⟨rfl, ih _ _⟩
    · exact nil_prefix

structure Handled (source : MySqlCdcSource) (lastTableInfo : Option TableInfo)
    (messages : List BinlogMessage) (after : MySqlCdcSource) (lastAfter : Option TableInfo) :
    Prop where
  config : after.config = source.config
  connected : after.connected = source.connected
  context : after.context = (reader source.config).after source.context messages
  buffer : after.eventBuffer = source.eventBuffer ++
    ((reader source.config).outputs source.context messages).flatMap events
  last : lastAfter = (((reader source.config).outputs source.context messages).getLast?.map
    table).getD lastTableInfo
  gtidSet : after.gtidSet = executed source.gtidSet messages
  position : after.position = reached source.position messages

variable (lastTableInfo : Option TableInfo)

theorem handleRows_spec {Row : Type} {message : RowsMessage Row}
    {toEvents : RowsMessage Row → String → Option Gtid → List ChangeEvent} {read : BinlogMessage}
    (isStep : (reader source.config).step source.context read =
      (source.context, source.context.readRows source.config message toEvents))
    (noGtid : executed source.gtidSet [read] = source.gtidSet)
    (noMove : reached source.position [read] = source.position) :
    Handled source lastTableInfo [read] (source.handleRows lastTableInfo message toEvents).1
      (source.handleRows lastTableInfo message toEvents).2 := by
  have outputs : (reader source.config).outputs source.context [read] =
      source.context.readRows source.config message toEvents := by
    simp only [outputs, isStep, append_nil]
  have after : (reader source.config).after source.context [read] = source.context := by
    simp only [Transducer.after, foldl_cons, foldl_nil, isStep]
  unfold BinlogContext.readRows at outputs
  unfold handleRows
  split at outputs
  · rename_i included
    rw [if_pos included]
    exact ⟨rfl, rfl, after.symm, by simp [outputs]; rfl, by rw [outputs]; rfl, noGtid.symm,
      noMove.symm⟩
  · rename_i excluded
    rw [if_neg excluded]
    exact ⟨rfl, rfl, after.symm, by simp [outputs], by rw [outputs]; rfl, noGtid.symm, noMove.symm⟩

theorem handle_handled (message : BinlogMessage) :
    Handled source lastTableInfo [message] (source.handle lastTableInfo message).1
      (source.handle lastTableInfo message).2 := by
  cases message with
  | begin gtid =>
    cases gtid with
    | none | some =>
      constructor <;> simp [handle, context, reader, Transducer.after, outputs, executed, reached]
  | commit | tableMap | query | rotate | heartbeat =>
    constructor <;> simp [handle, context, reader, Transducer.after, outputs, executed, reached]
  | insert rows => exact handleRows_spec lastTableInfo rfl rfl rfl
  | update rows => exact handleRows_spec lastTableInfo rfl rfl rfl
  | delete rows => exact handleRows_spec lastTableInfo rfl rfl rfl

variable {last lastAfter : Option TableInfo} {after : MySqlCdcSource}

theorem Handled.trans {middle : MySqlCdcSource} {lastMiddle : Option TableInfo}
    (before : Handled source last first middle lastMiddle)
    (rest : Handled middle lastMiddle second after lastAfter) :
    Handled source last (first ++ second) after lastAfter := by
  have outputs : (reader source.config).outputs source.context (first ++ second) =
      (reader source.config).outputs source.context first ++
        (reader middle.config).outputs middle.context second := by
    rw [outputs_append, before.config, before.context]
  constructor
  · exact rest.config.trans before.config
  · exact rest.connected.trans before.connected
  · rw [rest.context, before.config, before.context, after_append]
  · rw [rest.buffer, before.buffer, outputs, flatMap_append, append_assoc]
  · rw [rest.last, before.last, outputs, getLast?_append]
    cases ((reader middle.config).outputs middle.context second).getLast? with
    | none | some => simp
  · rw [rest.gtidSet, before.gtidSet]
    exact foldl_append.symm
  · rw [rest.position, before.position]
    exact foldl_append.symm

theorem Handled.refl (source : MySqlCdcSource) (last : Option TableInfo) :
    Handled source last [] source last :=
  ⟨rfl, rfl, rfl, (append_nil _).symm, rfl, rfl, rfl⟩

theorem drain_handled (maxRecords : Nat) (lastTableInfo : Option TableInfo)
    (messages : List BinlogMessage) :
    let taken := takes source.config maxRecords source.context source.eventBuffer.length messages
    let after := drain maxRecords source lastTableInfo messages
    Handled source lastTableInfo taken after.1 after.2 ∧ taken ++ after.1.msgRx = messages := by
  induction messages generalizing source lastTableInfo with
  | nil => exact ⟨{ Handled.refl source lastTableInfo with }, rfl⟩
  | cons message messages ih =>
    unfold drain takes
    split
    · have step := @handle_handled source lastTableInfo message
      obtain ⟨rest, left⟩ := @ih (source.handle lastTableInfo message).1
        (source.handle lastTableInfo message).2
      have length : (source.handle lastTableInfo message).1.eventBuffer.length =
          source.eventBuffer.length + eventCount source.config source.context message := by
        rw [step.buffer, length_append]
        simp only [outputs, append_nil, eventCount]
      have context := step.context
      rw [step.config, context, length] at rest left
      exact ⟨step.trans rest, congrArg (message :: ·) left⟩
    · exact ⟨{ Handled.refl source lastTableInfo with }, rfl⟩

def nextTaken (source : MySqlCdcSource) (maxRecords : Nat) : List BinlogMessage :=
  takes source.config maxRecords source.context source.eventBuffer.length source.msgRx

def UniformPoll (source : MySqlCdcSource) (maxRecords : Nat) : Prop :=
  ∀ read ∈ (reader source.config).outputs source.context (source.nextTaken maxRecords),
    ∀ other ∈ (reader source.config).outputs source.context (source.nextTaken maxRecords),
      read.columns = other.columns

def returnedRows : Except ConnectorError (Option (List ChangeRow)) → List ChangeRow
  | .ok (some rows) => rows
  | _ => []

theorem eventsToRecordBatch_uniform {reads : List RowsRead} {info : TableInfo}
    (own : ∀ read ∈ reads, read.columns = some info.columns) :
    eventsToRecordBatch (reads.flatMap events) info = reads.flatMap rows := by
  unfold eventsToRecordBatch
  rw [map_flatMap]
  apply flatMap_congr
  intro read mem
  rw [rows, own read mem, Option.getD_some]

theorem pollBatch_spec (connected : source.connected = true)
    (noBuffer : source.eventBuffer = []) (uniform : source.UniformPoll maxRecords)
    (known : ∀ read ∈ (reader source.config).outputs source.context
      (source.nextTaken maxRecords), read.table.isSome = true) :
    ∃ after result, source.pollBatch maxRecords = (after, .ok result) ∧
      after.eventBuffer = [] ∧ after.config = source.config ∧ after.connected = true ∧
      after.context = (reader source.config).after source.context (source.nextTaken maxRecords) ∧
      returnedRows (.ok result) =
        changes source.config source.context (source.nextTaken maxRecords) ∧
      after.gtidSet = executed source.gtidSet (source.nextTaken maxRecords) ∧
      after.position = reached source.position (source.nextTaken maxRecords) ∧
      source.nextTaken maxRecords ++ after.msgRx = source.msgRx := by
  obtain ⟨handled, left⟩ := @drain_handled source maxRecords none source.msgRx
  unfold pollBatch changes
  rw [if_pos connected]
  unfold UniformPoll at uniform
  change Handled source none (source.nextTaken maxRecords) _ _ at handled
  have isBuffer := handled.buffer
  have isLast := handled.last
  rw [noBuffer, nil_append] at isBuffer
  generalize drain maxRecords source none source.msgRx = drained at handled left isBuffer isLast ⊢
  obtain ⟨after, last⟩ := drained
  generalize (reader source.config).outputs source.context (source.nextTaken maxRecords) = reads
    at uniform known isBuffer isLast ⊢
  cases isRead : reads.getLast? with rw [isRead] at isLast
  | none =>
    cases isLast
    rw [getLast?_eq_none_iff.mp isRead] at isBuffer ⊢
    exact ⟨after, none, rfl, isBuffer, handled.config, handled.connected.trans connected,
      handled.context, rfl, handled.gtidSet, handled.position, left⟩
  | some read =>
    have mem := mem_of_getLast? isRead
    obtain ⟨info, isInfo⟩ := Option.isSome_iff_exists.mp (known read mem)
    simp only [Option.map_some, Option.getD_some, isInfo] at isLast
    cases isLast
    have own : ∀ other ∈ reads, other.columns = some info.columns := by
      intro other isOther
      rw [uniform other isOther read mem, columns, isInfo]
      rfl
    refine ⟨(after.flushEvents info).1, (after.flushEvents info).2, rfl, ?_⟩
    unfold flushEvents
    split
    · rename_i noEvents
      have nothing := isEmpty_iff.mp noEvents
      refine ⟨nothing, handled.config, handled.connected.trans connected, handled.context, ?_,
        handled.gtidSet, handled.position, left⟩
      rw [← eventsToRecordBatch_uniform own, ← isBuffer, nothing]
      rfl
    · refine ⟨rfl, handled.config, handled.connected.trans connected, handled.context, ?_,
        handled.gtidSet, handled.position, left⟩
      rw [← eventsToRecordBatch_uniform own, ← isBuffer]
      rfl

end MySqlCdcSource

/-- A source with the binlog that the server has not sent yet and the rows returned so far. -/
structure Session where
  source : MySqlCdcSource
  unread : List BinlogMessage
  returned : List ChangeRow

inductive SessionStep where
  | receive
  | poll (maxRecords : Nat)

namespace Session

def step (session : Session) : SessionStep → Session
  | .receive =>
    match session.unread with
    | [] => session
    | message :: unread =>
      { session with
        source := { session.source with msgRx := session.source.msgRx ++ [message] }
        unread }
  | .poll maxRecords =>
    let polled := session.source.pollBatch maxRecords
    { session with
      source := polled.1
      returned := session.returned ++ returnedRows polled.2 }

def run (session : Session) (steps : List SessionStep) : Session :=
  steps.foldl step session

section

variable (config : MySqlCdcConfig) (log : List BinlogMessage)

def start : Session where
  source := (new config).openSource.1
  unread := log
  returned := []

def startContext : BinlogContext :=
  (new config).openSource.1.context

def startPosition : Option BinlogPosition :=
  (new config).openSource.1.position

def UniformRun : Session → List SessionStep → Prop
  | _, [] => True
  | session, .receive :: steps => UniformRun (session.step .receive) steps
  | session, .poll maxRecords :: steps =>
    session.source.UniformPoll maxRecords ∧ UniformRun (session.step (.poll maxRecords)) steps

structure Tracks (session : Session) (drained : List BinlogMessage) : Prop where
  isLog : log = drained ++ (session.source.msgRx ++ session.unread)
  sameConfig : session.source.config = config
  connected : session.source.connected = true
  context : session.source.context = (reader config).after (startContext config) drained
  buffer : session.source.eventBuffer = []
  returned : session.returned = changes config (startContext config) drained
  gtidSet : session.source.gtidSet = executed config.gtidSet drained
  position : session.source.position = reached (startPosition config) drained

theorem tracks_start : Tracks config log (start config log) [] :=
  ⟨rfl, rfl, rfl, rfl, rfl, rfl, rfl, rfl⟩

end

variable {log drained : List BinlogMessage} {session : Session}
  (tracks : Tracks config log session drained)

include tracks

theorem Tracks.receive : Tracks config log (session.step .receive) drained := by
  unfold step
  cases isUnread : session.unread with
  | nil => exact tracks
  | cons message unread =>
    refine { tracks with isLog := ?_ }
    rw [append_assoc, singleton_append, ← isUnread]
    exact tracks.isLog

variable (known : ∀ read ∈ (reader config).outputs (startContext config) log,
  read.table.isSome = true)

include known

theorem Tracks.poll (uniform : session.source.UniformPoll maxRecords) :
    ∃ more, Tracks config log (session.step (.poll maxRecords)) (drained ++ more) := by
  have isPart : drained ++ session.source.nextTaken maxRecords <+: log := by
    rw [tracks.isLog]
    apply prefix_append_right_inj drained |>.mpr
    exact (takes_isPart _ _).trans (prefix_append _ _)
  have knownHere : ∀ read ∈ (reader session.source.config).outputs session.source.context
      (session.source.nextTaken maxRecords), read.table.isSome = true := by
    intro read mem
    apply known read
    apply (outputs_mono _ isPart).subset
    rw [outputs_append, ← tracks.context]
    rw [tracks.sameConfig] at mem
    exact mem_append_right _ mem
  obtain ⟨after, result, isPoll, noBuffer, sameConfig, connected, context, rows, gtidSet, position,
    left⟩ := pollBatch_spec tracks.connected tracks.buffer uniform knownHere
  refine ⟨session.source.nextTaken maxRecords, ?_⟩
  simp only [step, isPoll]
  constructor
  · rw [tracks.isLog, ← left]
    simp only [append_assoc]
  · exact sameConfig.trans tracks.sameConfig
  · exact connected
  · rw [context, tracks.sameConfig, tracks.context, after_append]
  · exact noBuffer
  · rw [rows, tracks.sameConfig, tracks.context, changes_append, tracks.returned]
  · rw [gtidSet, tracks.gtidSet]
    exact foldl_append.symm
  · rw [position, tracks.position]
    exact foldl_append.symm

theorem Tracks.run {steps : List SessionStep} (uniform : session.UniformRun steps) :
    ∃ all, Tracks config log (session.run steps) all := by
  induction steps generalizing session drained with
  | nil => exact ⟨drained, tracks⟩
  | cons step steps ih =>
    cases step with
    | receive => exact ih tracks.receive uniform
    | poll maxRecords =>
      obtain ⟨more, polled⟩ := tracks.poll known uniform.1
      exact ih polled uniform.2

end Session

end LaminarDB.Connectors.MySql
