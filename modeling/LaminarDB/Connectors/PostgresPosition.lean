import LaminarDB.Connectors.PostgresStream

/-!
# Positions of the Postgres change source

As long as no event is dropped, the events of a source are those of the transactions that
it has read, and the transactions that end at or before the polled LSN were returned.
After a restart at that LSN every transaction is returned, before the checkpoint or after
the restart. A transaction that ends later can be returned twice.
-/

namespace LaminarDB.Connectors.Postgres

open Library List Postgres.System

variable {Tuple : Type} {tupleToJson : Tuple → RelationInfo → String} {payload : WalPayload Tuple}
  {log : List (Txn Tuple)} {lsn : Lsn}

namespace PostgresCdcSource

structure Keeps (source after : PostgresCdcSource Tuple) : Prop where
  config : after.config = source.config
  state : after.state = source.state
  walRx : after.walRx = source.walRx
  readerClosed : after.readerClosed = source.readerClosed
  polledLsn : after.polledLsn = source.polledLsn
  confirmedLsn : after.confirmedLsn = source.confirmedLsn
  dropped : source.dropped ≤ after.dropped

variable (source : PostgresCdcSource Tuple) {event : ChangeEvent}

theorem Keeps.refl : Keeps source source :=
  ⟨rfl, rfl, rfl, rfl, rfl, rfl, le_refl _⟩

theorem Keeps.trans {source middle after : PostgresCdcSource Tuple} (first : Keeps source middle)
    (second : Keeps middle after) : Keeps source after :=
  ⟨second.config.trans first.config, second.state.trans first.state, second.walRx.trans first.walRx,
    second.readerClosed.trans first.readerClosed, second.polledLsn.trans first.polledLsn,
    second.confirmedLsn.trans first.confirmedLsn, first.dropped.trans second.dropped⟩

theorem pushEvent_keeps : Keeps source (source.pushEvent event) := by
  simp only [pushEvent]
  split
  · exact ⟨rfl, rfl, rfl, rfl, rfl, rfl, Nat.le_succ _⟩
  · cases source.currentTxn with
    | none | some => exact { Keeps.refl source with }

variable {source after : PostgresCdcSource Tuple} {relationId : Nat}

theorem processRow_keeps {op : CdcOperation} {old new : Option Tuple}
    (isOk : processRow tupleToJson source relationId op old new = .ok after) :
    Keeps source after := by
  unfold processRow at isOk
  split at isOk
  · cases isOk
  · split at isOk
    · cases isOk
      exact pushEvent_keeps source
    · cases isOk
      exact .refl source

theorem processWalMessage_keeps {message : WalMessage Tuple}
    (isOk : processWalMessage tupleToJson source message = .ok after) : Keeps source after := by
  cases message with
  | insert | update | delete => exact processRow_keeps isOk
  | truncate relationIds => cases isOk
  | relation | origin | type =>
    cases isOk
    exact { Keeps.refl source with }

theorem processWalPayload_keeps
    (isOk : processWalPayload tupleToJson source payload = .ok after) : Keeps source after := by
  cases payload with
  | begin finalLsn commitTsUs =>
    cases isOk
    exact { Keeps.refl source with }
  | commit endLsn =>
    unfold processWalPayload at isOk
    cases isTxn : source.currentTxn with (simp only [isTxn] at isOk; cases isOk)
    | none => exact .refl source
    | some txn => exact { Keeps.refl source with }
  | xLogData walEnd data =>
    cases data with
    | beginOrCommit =>
      cases isOk
      exact { Keeps.refl source with }
    | invalid error => cases isOk
    | message message =>
      simp only [processWalPayload] at isOk
      cases processed : processWalMessage tupleToJson source message with
          (rw [processed] at isOk; cases isOk)
      | ok middle => exact { processWalMessage_keeps processed with }
  | keepAlive walEnd =>
    cases isOk
    exact { Keeps.refl source with }
  | error message => cases isOk

variable (source : PostgresCdcSource Tuple)

theorem processPayloads_keeps (payloads : List (WalPayload Tuple)) :
    Keeps source (processPayloads tupleToJson source payloads).1 := by
  induction payloads generalizing source with
  | nil => exact .refl source
  | cons payload payloads ih =>
    unfold processPayloads
    cases processed : processWalPayload tupleToJson source payload with
    | error error => exact .refl source
    | ok middle => exact (processWalPayload_keeps processed).trans (ih middle)

theorem pushEvent_txn {source : PostgresCdcSource Tuple} {txn : TransactionState}
    (isTxn : source.currentTxn = some txn) (noDrop : (source.pushEvent event).dropped = 0) :
    source.pushEvent event =
      { source with currentTxn := some { txn with events := txn.events ++ [event] } } := by
  simp only [pushEvent] at noDrop ⊢
  split
  · rename_i full
    rw [if_pos full] at noDrop
    cases noDrop
  · rw [isTxn]

theorem processWalMessage_toWal (message : RowMessage Tuple) :
    processWalMessage tupleToJson source (message.toWal relationId) =
      processRow tupleToJson source relationId message.op message.before message.after := by
  cases message <;> rfl

end PostgresCdcSource

open PostgresCdcSource

section Source

variable {base : Lsn} {config : PostgresCdcConfig}

variable (tupleToJson config) in
def Progress.state (progress : Progress Tuple) : TransactionState where
  finalLsn := progress.txn.finalLsn
  commitTsMs := pgTimestampToUnixMs progress.txn.commitTsUs
  events := progress.sent.flatMap (progress.txn.rowEvents tupleToJson config)

variable (tupleToJson log base config) in
structure Holds (reader : Reader Tuple) (source : PostgresCdcSource Tuple)
    (returned : List ChangeEvent) : Prop where
  sameConfig : source.config = config
  running : source.state = .running
  connected : source.readerClosed = false
  relations : source.relationCache = reader.relations
  txn : source.currentTxn = reader.current.map (Progress.state tupleToJson config)
  events : returned ++ source.eventBuffer = reader.seen.flatMap (Txn.changes tupleToJson config)
  written : reader.seen ≠ [] → Covered log base reader.seen source.writeLsn

variable {next after reader : Reader Tuple} {source : PostgresCdcSource Tuple}
  {returned : List ChangeEvent}

section

variable (holds : Holds tupleToJson log base config reader source returned)

include holds

theorem Holds.row {txn : Txn Tuple} {sent rest : List (RowChange Tuple)} {row : RowChange Tuple}
    (isCurrent : reader.current = some ⟨txn, sent, row :: rest⟩)
    (known : reader.relations.find? row.relation.relationId = some row.relation)
    (covered : Covered log base reader.seen row.walEnd) :
    ∃ after, processWalPayload tupleToJson source
        (.xLogData row.walEnd (.message (row.message.toWal row.relation.relationId))) = .ok after ∧
      (after.dropped = 0 → Holds tupleToJson log base config
        { reader with current := some ⟨txn, sent ++ [row], rest⟩ } after returned) := by
  have isTxn : source.currentTxn = some (Progress.state tupleToJson config
      ⟨txn, sent, row :: rest⟩) := by
    rw [holds.txn, isCurrent]
    rfl
  have isRelation : source.relationCache.find? row.relation.relationId = some row.relation := by
    rw [holds.relations]
    exact known
  simp only [processWalPayload, processWalMessage_toWal, processRow, isRelation, holds.sameConfig]
  split
  · rename_i included
    refine ⟨_, rfl, fun noDrop => ?_⟩
    rw [pushEvent_txn isTxn noDrop]
    refine { holds with txn := ?_, written := fun _ => covered }
    simp only [Option.map_some, Option.some.injEq, Progress.state, TransactionState.mk.injEq,
      flatMap_append, flatMap_cons, flatMap_nil, append_nil, true_and]
    rw [Txn.rowEvents, if_pos included]
    simp only [currentTxnContext, isTxn, Progress.state]
  · rename_i excluded
    refine ⟨_, rfl, fun _ => ?_⟩
    refine { holds with txn := ?_, written := fun _ => covered }
    rw [isTxn]
    simp only [Option.map_some, Option.some.injEq, Progress.state, TransactionState.mk.injEq,
      flatMap_append, flatMap_cons, flatMap_nil, append_nil, true_and]
    rw [Txn.rowEvents, if_neg excluded, append_nil]

theorem Holds.process (reads : Reads log base reader payload next) :
    ∃ after, processWalPayload tupleToJson source payload = .ok after ∧
      (after.dropped = 0 → Holds tupleToJson log base config next after returned) := by
  cases reads with
  | begin txn =>
    refine ⟨_, rfl, fun _ => ?_⟩
    exact { holds with txn := rfl }
  | relation info walEnd covered =>
    refine ⟨_, rfl, fun _ => ?_⟩
    exact
      { holds with
        relations := congrArg (KeyedMap.insert · info.relationId info) holds.relations
        written := fun _ => covered }
  | row txn sent rest row isCurrent known covered => exact holds.row isCurrent known covered
  | commit txn isCurrent covered =>
    have isTxn : source.currentTxn = some (Progress.state tupleToJson config
        ⟨txn, txn.rows, []⟩) := by
      rw [holds.txn, isCurrent]
      rfl
    simp only [processWalPayload, isTxn]
    refine ⟨_, rfl, fun _ => ?_⟩
    refine { holds with txn := rfl, events := ?_, written := fun _ => covered }
    rw [flatMap_append, ← holds.events, flatMap_singleton, append_assoc]
    rfl
  | keepAlive walEnd covered =>
    refine ⟨_, rfl, fun _ => ?_⟩
    exact { holds with written := fun _ => covered }

theorem Holds.processAll {payloads : List (WalPayload Tuple)}
    (flow : Flow log base reader payloads next)
    (noDrop : (processPayloads tupleToJson source payloads).1.dropped = 0) :
    (processPayloads tupleToJson source payloads).2 = none ∧
      Holds tupleToJson log base config next (processPayloads tupleToJson source payloads).1
        returned := by
  induction payloads generalizing source reader with
  | nil =>
    cases flow
    exact ⟨rfl, holds⟩
  | cons payload payloads ih =>
    obtain ⟨middle, reads, rest⟩ := flow
    obtain ⟨after, processed, kept⟩ := holds.process reads
    simp only [processPayloads, processed] at noDrop ⊢
    have clean := Nat.le_zero.mp
      (noDrop ▸ (@processPayloads_keeps Tuple tupleToJson after payloads).dropped)
    exact ih (kept clean) rest noDrop

end

variable (tupleToJson log base config) in
def Returned (seen : List (Txn Tuple)) (returned : List ChangeEvent) (lsn : Lsn) : Prop :=
  ∃ sent, sent <+: seen ∧ sent.flatMap (Txn.changes tupleToJson config) <+: returned ∧
    Covered log base sent lsn

theorem Returned.mono {seen more : List (Txn Tuple)} {later : List ChangeEvent}
    (isReturned : Returned tupleToJson log base config seen returned lsn) (part : seen <+: more)
    (extended : returned <+: later) : Returned tupleToJson log base config more later lsn := by
  obtain ⟨sent, isSeen, events, covered⟩ := isReturned
  exact ⟨sent, isSeen.trans part, events.trans extended, covered⟩

variable {maxRecords : Nat}

theorem drainEvents_spec (holds : Holds tupleToJson log base config reader source returned)
    (polled : Returned tupleToJson log base config reader.seen returned source.polledLsn) :
    let drained := source.drainEvents maxRecords
    Holds tupleToJson log base config reader drained.1
      (returned ++ returnedEvents (.ok drained.2)) ∧
      Returned tupleToJson log base config reader.seen (returned ++ returnedEvents (.ok drained.2))
        drained.1.polledLsn ∧
      drained.1.walRx = source.walRx ∧ drained.1.confirmedLsn = source.confirmedLsn ∧
      drained.1.dropped = source.dropped := by
  unfold drainEvents
  split
  · refine ⟨?_, ?_, rfl, rfl, rfl⟩
    · simp only [returnedEvents, append_nil]
      exact holds
    · simp only [returnedEvents, append_nil]
      exact polled
  · rename_i someEvents
    have parts : (returned ++ source.eventBuffer.take maxRecords) ++
        source.eventBuffer.drop maxRecords =
          reader.seen.flatMap (Txn.changes tupleToJson config) := by
      rw [append_assoc, take_append_drop]
      exact holds.events
    refine ⟨{ holds with events := parts }, ?_, rfl, rfl, rfl⟩
    simp only [returnedEvents]
    split
    · rename_i nothingLeft
      rw [List.isEmpty_iff.mp nothingLeft, append_nil] at parts
      have someSeen : reader.seen ≠ [] := by
        intro nothing
        have noEvents := holds.events
        rw [nothing] at noEvents
        exact someEvents (List.isEmpty_iff.mpr (append_eq_nil_iff.mp noEvents).2)
      exact ⟨reader.seen, prefix_refl _, parts ▸ prefix_refl _, holds.written someSeen⟩
    · exact polled.mono (prefix_refl _) (prefix_append _ _)

variable {source : PostgresCdcSource Tuple}

theorem dropExcess_eq (noDrop : source.dropExcess.dropped = 0) : source.dropExcess = source := by
  simp only [dropExcess] at noDrop ⊢
  obtain ⟨clean, noExcess⟩ := Nat.add_eq_zero_iff.mp noDrop
  rw [noExcess]
  rfl

theorem drainEvents_dropped : (source.drainEvents maxRecords).1.dropped = source.dropped := by
  unfold drainEvents
  split <;> rfl

theorem pollBatch_dropped :
    source.dropped ≤ (source.pollBatch tupleToJson maxRecords).1.dropped := by
  simp only [pollBatch]
  split
  · have kept := (@processPayloads_keeps Tuple tupleToJson
      { source with walRx := source.walRx.drop (maxRecords - source.eventBuffer.length) }
      (source.walRx.take (maxRecords - source.eventBuffer.length))).dropped
    generalize processPayloads tupleToJson _ _ = processed at kept ⊢
    obtain ⟨after, error⟩ := processed
    cases error with
    | some error => exact kept
    | none =>
      simp only
      split
      · exact kept
      · rw [drainEvents_dropped]
        exact kept.trans (Nat.le_add_right _ _)
  · exact le_refl _

theorem pollBatch_eq (running : source.state = .running) (connected : source.readerClosed = false) :
    source.pollBatch tupleToJson maxRecords =
      match processPayloads tupleToJson
        { source with walRx := source.walRx.drop (maxRecords - source.eventBuffer.length) }
        (source.walRx.take (maxRecords - source.eventBuffer.length)) with
      | (after, some error) => (after, .error error)
      | (after, none) => ((after.dropExcess.drainEvents maxRecords).1,
          .ok (after.dropExcess.drainEvents maxRecords).2) := by
  have open_ : (source.readerClosed && decide (source.walRx.length <
      maxRecords - source.eventBuffer.length)) = false := by
    rw [connected, Bool.false_and]
  simp only [pollBatch, if_pos running, open_, Bool.false_and]
  rfl

theorem Holds.poll (holds : Holds tupleToJson log base config reader source returned)
    (flow : Flow log base reader source.walRx after)
    (polled : Returned tupleToJson log base config reader.seen returned source.polledLsn)
    (noDrop : (source.pollBatch tupleToJson maxRecords).1.dropped = 0) :
    let polled := source.pollBatch tupleToJson maxRecords
    ∃ middle, reader.seen <+: middle.seen ∧ Flow log base middle polled.1.walRx after ∧
      Holds tupleToJson log base config middle polled.1 (returned ++ returnedEvents polled.2) ∧
      Returned tupleToJson log base config middle.seen (returned ++ returnedEvents polled.2)
        polled.1.polledLsn ∧
      polled.1.confirmedLsn = source.confirmedLsn := by
  have split := flow
  rw [← take_append_drop (maxRecords - source.eventBuffer.length) source.walRx] at split
  obtain ⟨middle, taken, left⟩ := flow_append.mp split
  have before : Holds tupleToJson log base config reader
      { source with walRx := source.walRx.drop (maxRecords - source.eventBuffer.length) }
      returned :=
    { holds with }
  have processAll := before.processAll taken
  have kept := @processPayloads_keeps Tuple tupleToJson
    { source with walRx := source.walRx.drop (maxRecords - source.eventBuffer.length) }
    (source.walRx.take (maxRecords - source.eventBuffer.length))
  rw [pollBatch_eq holds.running holds.connected] at noDrop ⊢
  generalize processPayloads tupleToJson _ _ = processed at processAll kept noDrop ⊢
  obtain ⟨now, error⟩ := processed
  cases error with
  | some error => cases (processAll noDrop).1
  | none =>
    have clean := drainEvents_dropped.symm.trans noDrop
    have same := dropExcess_eq clean
    rw [same] at clean
    obtain ⟨-, here⟩ := processAll clean
    have polledHere : Returned tupleToJson log base config middle.seen returned now.polledLsn := by
      rw [kept.polledLsn]
      exact polled.mono taken.seen (prefix_refl _)
    obtain ⟨drained, isReturned, walRx, confirmedLsn, -⟩ :=
      @drainEvents_spec Tuple tupleToJson log base config middle now returned maxRecords here
        polledHere
    simp only [same]
    refine ⟨middle, taken.seen, ?_, drained, isReturned, confirmedLsn.trans kept.confirmedLsn⟩
    have isWal := walRx.trans kept.walRx
    rw [isWal]
    exact left

variable (tupleToJson log base config) in
structure Sound (system : System Tuple) (reader after : Reader Tuple) : Prop where
  holds : Holds tupleToJson log base config reader system.source system.returned
  flow : Flow log base reader system.source.walRx after
  feeds : Feeds log base system.reconnected after system.connection
  polled : Returned tupleToJson log base config reader.seen system.returned system.source.polledLsn
  confirmed : Returned tupleToJson log base config reader.seen system.returned
    system.source.confirmedLsn

variable {action : Action} {system : System Tuple}

theorem step_dropped {after : System Tuple}
    (isStep : system.step tupleToJson log action = some after) :
    system.source.dropped ≤ after.source.dropped := by
  cases action with
  | send message =>
    obtain ⟨sent, -, rfl⟩ := Option.map_eq_some_iff.mp isStep
    exact le_refl _
  | poll maxRecords =>
    cases isStep
    exact pollBatch_dropped
  | checkpoint | reconnect =>
    cases isStep
    exact le_refl _

variable {final : System Tuple} {actions : List Action}

theorem run_dropped (isRun : system.run tupleToJson log actions = some final) :
    system.source.dropped ≤ final.source.dropped := by
  induction actions generalizing system with
  | nil =>
    cases isRun
    exact le_refl _
  | cons action actions ih =>
    obtain ⟨middle, isStep, rest⟩ := Option.bind_eq_some_iff.mp isRun
    exact (step_dropped isStep).trans (ih rest)

variable (sorted : log.Pairwise fun txn later => txn.endLsn < later.endLsn)

include sorted in
theorem Sound.step {next : System Tuple}
    (sound : Sound tupleToJson log base config system reader after)
    (isStep : system.step tupleToJson log action = some next) (noDrop : next.source.dropped = 0) :
    ∃ reader after, Sound tupleToJson log base config next reader after := by
  have same := sound.holds
  cases action with
  | send message =>
    obtain ⟨⟨connection, payload⟩, isSent, rfl⟩ := Option.map_eq_some_iff.mp isStep
    obtain ⟨later, reads, feeds⟩ := sound.feeds.send isSent
    refine ⟨reader, later, ?_, ?_, feeds, sound.polled, sound.confirmed⟩
    · exact { same with }
    · exact flow_append.mpr ⟨after, sound.flow, later, reads, rfl⟩
  | poll maxRecords =>
    cases isStep
    obtain ⟨middle, seen, flow, holds, polled, confirmedLsn⟩ :=
      same.poll sound.flow sound.polled noDrop
    refine ⟨middle, after, holds, flow, sound.feeds, polled, ?_⟩
    simp only [confirmedLsn]
    exact sound.confirmed.mono seen (prefix_append _ _)
  | checkpoint =>
    cases isStep
    exact ⟨reader, after, { same with }, sound.flow, sound.feeds, sound.polled, sound.polled⟩
  | reconnect =>
    cases isStep
    obtain ⟨sent, isSeen, -, covered⟩ := sound.confirmed
    refine ⟨reader, after, same, sound.flow, feeds_start sorted ?_ (nofun),
      sound.polled, sound.confirmed⟩
    exact covered.mono (isSeen.trans sound.flow.seen).subset

include sorted in
theorem Sound.run (sound : Sound tupleToJson log base config system reader after)
    (isRun : system.run tupleToJson log actions = some final) (noDrop : final.source.dropped = 0) :
    ∃ reader after, Sound tupleToJson log base config final reader after := by
  induction actions generalizing system reader after with
  | nil =>
    cases isRun
    exact ⟨reader, after, sound⟩
  | cons action actions ih =>
    obtain ⟨middle, isStep, rest⟩ := Option.bind_eq_some_iff.mp isRun
    have clean := Nat.le_zero.mp (noDrop ▸ run_dropped rest)
    obtain ⟨here, sent, next⟩ := sound.step sorted isStep clean
    exact ih next rest

variable (config source) in
structure Fresh (lsn : Lsn) : Prop where
  sameConfig : source.config = config
  running : source.state = .running
  connected : source.readerClosed = false
  relations : source.relationCache = .empty
  txn : source.currentTxn = none
  buffer : source.eventBuffer = []
  walRx : source.walRx = []
  polled : source.polledLsn = lsn
  confirmed : source.confirmedLsn ≤ lsn

include sorted in
theorem sound_start (fresh : Fresh config source base) :
    Sound tupleToJson log base config (.start log source base) ⟨none, [], .empty⟩
      ⟨none, [], .empty⟩ := by
  have early : ∀ lsn, lsn ≤ base → Covered log base ([] : List (Txn Tuple)) lsn :=
    fun lsn atMost txn _ ended => .inl (ended.trans atMost)
  constructor
  · exact { fresh with events := fresh.buffer, written := fun some => absurd rfl some }
  · simp only [start, fresh.walRx]
    rfl
  · exact feeds_start sorted (early base (le_refl _)) fun _ => ⟨rfl, rfl⟩
  · exact ⟨[], prefix_refl _, prefix_refl _, early _ fresh.polled.le⟩
  · exact ⟨[], prefix_refl _, prefix_refl _, early _ fresh.confirmed⟩

theorem Sound.seen_order (sound : Sound tupleToJson log base config system reader after)
    (steady : system.reconnected = false) :
    reader.seen <+: log.filter fun txn => base < txn.endLsn := by
  rw [← sound.feeds.order steady]
  exact sound.flow.seen.trans (prefix_append _ _)

structure CaughtUp (system : System Tuple) : Prop where
  sent : system.connection.pending = []
  read : system.source.walRx = []
  drained : system.source.eventBuffer = []

variable (tupleToJson log) in
/-- A transaction that ends at or before the restored LSN was returned before the checkpoint, and
every later one is returned after the restore. In a run without reconnects a transaction is returned
once, in the order of the log. -/
structure ReturnsAll
    (base lsn : Lsn) (config : PostgresCdcConfig) (first second : System Tuple) : Prop where
  early : ∀ txn ∈ log, base < txn.endLsn → txn.endLsn ≤ lsn → ∃ sent : List (Txn Tuple),
    txn ∈ sent ∧ sent.flatMap (Txn.changes tupleToJson config) <+: first.returned
  late : ∀ txn ∈ log, lsn < txn.endLsn → ∃ sent : List (Txn Tuple), txn ∈ sent ∧
    second.returned = sent.flatMap (Txn.changes tupleToJson config)
  earlyOnce : first.reconnected = false → ∃ sent rest,
    (log.filter fun txn => base < txn.endLsn) = sent ++ rest ∧
      (∀ txn ∈ rest, lsn < txn.endLsn) ∧
      sent.flatMap (Txn.changes tupleToJson config) <+: first.returned ∧
      first.returned <+: (sent ++ rest).flatMap (Txn.changes tupleToJson config)
  lateOnce : second.reconnected = false → second.returned =
    (log.filter fun txn => lsn < txn.endLsn).flatMap (Txn.changes tupleToJson config)

end Source

section Restart

variable {base slot : Lsn} {config : PostgresCdcConfig} {actions later : List Action}
  {first second : System Tuple}

/-- Nothing is lost by a restart at a checkpoint, if no event was dropped. -/
theorem restart_returnsAll (sorted : log.Pairwise fun txn other => txn.endLsn < other.endLsn)
    (isFirst : (start log (openAt config base) base).run tupleToJson log actions =
      some first) (noDrop : first.source.dropped = 0)
    (behind : slot ≤ first.source.checkpoint.2.lsn)
    (isSecond : (start log ((openAt config slot).restore first.source.checkpoint.2)
      first.source.checkpoint.2.lsn).run tupleToJson log later = some second)
    (stillNoDrop : second.source.dropped = 0) (caughtUp : CaughtUp second) :
    ReturnsAll tupleToJson log base first.source.checkpoint.2.lsn config first second := by
  have opened : Fresh config (openAt config base : PostgresCdcSource Tuple) base :=
    ⟨rfl, rfl, rfl, rfl, rfl, rfl, rfl, rfl, le_refl _⟩
  have restored : Fresh config
      ((openAt config slot : PostgresCdcSource Tuple).restore first.source.checkpoint.2)
      first.source.checkpoint.2.lsn := ⟨rfl, rfl, rfl, rfl, rfl, rfl, rfl, rfl, behind⟩
  obtain ⟨reader, after, sound⟩ := (sound_start sorted opened).run sorted isFirst noDrop
  obtain ⟨readerLater, afterLater, soundLater⟩ :=
    (sound_start sorted restored).run sorted isSecond stillNoDrop
  obtain ⟨sent, isSeen, isReturned, covered⟩ := sound.polled
  have readAll : readerLater = afterLater := by
    have flow := soundLater.flow
    rw [caughtUp.read] at flow
    exact flow
  have returnedLater : second.returned =
      readerLater.seen.flatMap (Txn.changes tupleToJson config) := by
    have events := soundLater.holds.events
    rwa [caughtUp.drained, append_nil] at events
  constructor
  · intro txn mem later ended
    exact ⟨sent, (covered txn mem ended).resolve_left (not_le.mpr later), isReturned⟩
  · intro txn mem later
    refine ⟨readerLater.seen, ?_, returnedLater⟩
    have complete := soundLater.feeds.complete txn mem later
    rw [caughtUp.sent, ← readAll] at complete
    exact complete.resolve_right not_mem_nil
  · intro steady
    have inOrder := sound.seen_order steady
    obtain ⟨rest, isLog⟩ := isSeen.trans inOrder
    refine ⟨sent, rest, isLog.symm, ?_, isReturned, ?_⟩
    · intro txn isRest
      have mem := mem_filter.mp (isLog ▸ mem_append_right _ isRest)
      apply not_le.mp
      intro ended
      have isSent := (covered txn mem.1 ended).resolve_left (not_le.mpr (of_decide_eq_true mem.2))
      have apart := (pairwise_append.mp (isLog ▸ sorted.filter _)).2.2
      exact lt_irrefl _ (apart txn isSent txn isRest)
    · obtain ⟨unseen, isWhole⟩ := inOrder
      rw [isLog, ← isWhole, flatMap_append, ← sound.holds.events, append_assoc]
      exact prefix_append _ _
  · intro steady
    have order := soundLater.feeds.order steady
    rw [caughtUp.sent, append_nil, ← readAll] at order
    rw [returnedLater, order]

end Restart

def ordersRelation : RelationInfo := ⟨16384, "public", "orders", ["id"]⟩

def ordersTxn : Txn String where
  finalLsn := 90
  endLsn := 100
  commitTsUs := 0
  rows := [⟨ordersRelation, 80, .insert "1"⟩, ⟨ordersRelation, 85, .insert "2"⟩]

def allTables : PostgresCdcConfig where
  tableInclude := []
  tableExclude := []
  maxBufferedEvents := 100000

def sendsOrders : List Action :=
  [.send .begin, .send (.relation ordersRelation 80), .send .row, .send .row, .send .commit]

def laterTxn : Txn String :=
  ⟨190, 200, 0, [⟨ordersRelation, 180, .insert "3"⟩]⟩

def sendsLater : List Action :=
  [.send .begin, .send (.relation ordersRelation 180), .send .row, .send .commit]

def ordersRun (config : PostgresCdcConfig) (log : List (Txn String)) : Option (System String) :=
  (start log (openAt config 0) 0).run (fun tuple _ => tuple) log (sendsOrders ++ [.poll 5])

/-- The transaction that is sent after the restart is the one that was not returned before. -/
theorem restart_returnsAll_orders : ∃ first second,
    ordersRun allTables [ordersTxn, laterTxn] = some first ∧ first.returned.length = 2 ∧
      second.returned.length = 1 ∧
      ReturnsAll (fun tuple _ => tuple) [ordersTxn, laterTxn] 0 first.source.checkpoint.2.lsn
        allTables first second := by
  have isFirst : ordersRun allTables [ordersTxn, laterTxn] = some _ := rfl
  have isSecond : (start [ordersTxn, laterTxn] ((openAt allTables 0).restore ⟨100, 100⟩) 100).run
    (fun tuple _ => tuple) [ordersTxn, laterTxn] (sendsLater ++ [.poll 5]) = some _ := rfl
  exact ⟨_, _, isFirst, rfl, rfl, restart_returnsAll (pairwise_pair.mpr (by decide)) isFirst rfl
    (Nat.zero_le _) isSecond rfl ⟨rfl, rfl, rfl⟩⟩

/-- With room for one event one order is dropped, and the position passes both. -/
theorem restart_loses_order : ∃ first,
    ordersRun { allTables with maxBufferedEvents := 1 } [ordersTxn] = some first ∧
      first.returned.length = 1 ∧ first.source.checkpoint.2.lsn = ordersTxn.endLsn :=
  ⟨_, rfl, rfl, rfl⟩

/-- Polls of one record return the first order and leave the position; after a restart both
orders are returned. -/
theorem restart_orders_twice : ∃ first second,
    (start [ordersTxn] (openAt allTables 0) 0).run (fun tuple _ => tuple) [ordersTxn]
        (sendsOrders ++ [.poll 1, .poll 1, .poll 1, .poll 1, .poll 1]) = some first ∧
      (start [ordersTxn] ((openAt allTables 0).restore first.source.checkpoint.2)
        first.source.checkpoint.2.lsn).run (fun tuple _ => tuple) [ordersTxn]
          (sendsOrders ++ [.poll 5]) = some second ∧
      first.reconnected = false ∧ second.reconnected = false ∧ first.source.dropped = 0 ∧
      second.source.dropped = 0 ∧ CaughtUp second ∧
      ¬(first.returned ++ second.returned).Perm
        (ordersTxn.changes (fun tuple _ => tuple) allTables) := by
  refine ⟨_, _, rfl, rfl, rfl, rfl, rfl, rfl, ⟨rfl, rfl, rfl⟩, fun perm => ?_⟩
  exact absurd perm.length_eq (by decide)

end LaminarDB.Connectors.Postgres
