import LaminarDB.Connectors.MySqlRuns

/-!
# Positions of the MySQL change source

The position of a checkpoint says which transactions are not sent again. A file position
is moved by a commit, after the rows of the transaction; the GTID of a transaction is added
when it begins, and a checkpoint can come before its rows are drained. A restart streams
from the configured position, whatever is restored afterwards.
-/

namespace LaminarDB.Connectors.MySql

open Library List MySqlCdcSource Session BinlogMessage

variable {config : MySqlCdcConfig} {gtid : Gtid}

def BinlogMessage.isBegin : BinlogMessage → Bool
  | .begin _ => true
  | _ => false

def BinlogMessage.gtid? : BinlogMessage → Option Gtid
  | .begin gtid => gtid
  | _ => none

def BinlogPosition.Precedes (numberOf : String → Nat) (first second : BinlogPosition) : Prop :=
  numberOf first.filename < numberOf second.filename ∨
    numberOf first.filename = numberOf second.filename ∧ first.position < second.position

section Checkpoints

variable (numberOf : String → Nat) (config : MySqlCdcConfig) (log : List BinlogMessage)

def commitAt (messages : List BinlogMessage) (offset : Nat) : BinlogPosition :=
  ⟨((reader config).after (startContext config) messages).binlogFile, offset⟩

/-- What a server sends: a table map comes before the rows of its table, a transaction is sent
once and only if its GTID is not executed, and positions ascend. -/
structure ServerLog : Prop where
  known : ∀ read ∈ (reader config).outputs (startContext config) log, read.table.isSome = true
  fresh : ∀ set, config.gtidSet = some set → ∀ gtid ∈ log.filterMap gtid?, set.contains gtid = false
  once : (log.filterMap gtid?).Nodup
  ascending : ∀ first second offset rest position,
    log = first ++ second ++ .commit offset :: rest →
      reached (startPosition config) first = some position →
        position.Precedes numberOf (commitAt config (first ++ second) offset)

variable (checkpoint : SourceCheckpoint)

/-- Every transaction that the checkpoint covers was returned, under the columns of its
tables. -/
structure Covers (returned : List ChangeRow) : Prop where
  gtid : ∀ set, checkpoint.gtid = some set → ∀ before gtid body after,
    log = before ++ .begin (some gtid) :: (body ++ after) →
      (∀ message ∈ body, message.isBegin = false) →
      (∀ message ∈ after.head?, message.isBegin = true) → set.contains gtid = true →
        changes config (startContext config) (before ++ .begin (some gtid) :: body) <+: returned
  binlog : ∀ position, checkpoint.binlog = some position → ∀ before offset after,
    log = before ++ .commit offset :: after →
      ¬position.Precedes numberOf (commitAt config before offset) →
        changes config (startContext config) before <+: returned

/-- A source that is restarted asks for the stream after the checkpoint. -/
structure Resumes : Prop where
  gtid : ∀ set, checkpoint.gtid = some set → (restart config checkpoint).2 = .gtids set
  binlog : ∀ position, checkpoint.binlog = some position →
    (restart config checkpoint).2 = .file position.filename position.position

/-- The configuration names the position of the checkpoint as the start. -/
structure StartsAt : Prop where
  gtid : ∀ set, checkpoint.gtid = some set → config.useGtid = true ∧ config.gtidSet = some set
  binlog : ∀ position, checkpoint.binlog = some position → config.useGtid = false ∧
    config.binlogFilename = some position.filename ∧ config.binlogPosition = some position.position

end Checkpoints

def Session.Settled (session : Session) : Prop :=
  changes session.source.config session.source.context
    ((session.source.msgRx ++ session.unread).takeWhile fun message => !message.isBegin) = []

theorem GtidSet.contains_add (set : GtidSet) (other : Gtid) :
    (set.add gtid).contains other = true ↔ set.contains other = true ∨ other = gtid := by
  unfold GtidSet.contains GtidSet.add
  rw [KeyedMap.find?_insert]
  by_cases same : other.sourceId = gtid.sourceId
  · have single : (GtidRange.single gtid.transactionId).contains other.transactionId = true ↔
        other = gtid := by
      rw [GtidRange.contains, Bool.and_eq_true, decide_eq_true_iff, decide_eq_true_iff]
      constructor
      · intro both
        exact congrArg₂ Gtid.mk same (Nat.le_antisymm both.2 both.1)
      · rintro rfl
        exact ⟨le_refl _, le_refl _⟩
    rw [if_pos same, Option.any_some, any_append, Bool.or_eq_true, any_cons,
      any_nil, Bool.or_false, single, same]
    cases set.find? gtid.sourceId with
    | none => simp
    | some ranges => rfl
  · rw [if_neg same]
    constructor
    · exact .inl
    · rintro (before | rfl)
      · exact before
      · exact absurd rfl same

variable {messages : List BinlogMessage}

theorem executed_contains {start after : GtidSet}
    (isAfter : executed (some start) messages = some after) :
    after.contains gtid = true ↔ start.contains gtid = true ∨ gtid ∈ messages.filterMap gtid? := by
  induction messages generalizing start with
  | nil =>
    cases isAfter
    simp
  | cons message messages ih =>
    cases message with
    | begin begun =>
      cases begun with
      | none => exact ih isAfter
      | some begun =>
        rw [ih isAfter, GtidSet.contains_add, or_assoc]
        apply or_congr Iff.rfl
        exact mem_cons.symm
    | commit | tableMap | insert | update | delete | query | rotate | heartbeat => exact ih isAfter

theorem executed_none : executed none messages = none := by
  induction messages with
  | nil => rfl
  | cons message messages ih =>
    cases message with
    | begin begun => cases begun <;> exact ih
    | commit | tableMap | insert | update | delete | query | rotate | heartbeat => exact ih

variable {drained rest before after : List BinlogMessage}

theorem begun_of_once (same : drained ++ rest = before ++ .begin (some gtid) :: after)
    (once : ((drained ++ rest).filterMap gtid?).Nodup) (begun : gtid ∈ drained.filterMap gtid?) :
    ∃ more, drained = before ++ .begin (some gtid) :: more ∧ after = more ++ rest := by
  rw [filterMap_append] at once
  have apart := disjoint_of_nodup_append once
  rcases append_eq_append_iff.mp same with ⟨more, isBefore, isRest⟩ | ⟨more, isDrained, isAfter⟩
  · refine absurd ?_ (apart begun)
    rw [isRest, filterMap_append]
    exact mem_append_right _ mem_cons_self
  · cases more with
    | nil =>
      refine absurd ?_ (apart begun)
      rw [nil_append] at isAfter
      rw [← isAfter]
      exact mem_cons_self
    | cons message more =>
      obtain ⟨rfl, rfl⟩ := List.cons.inj isAfter
      exact ⟨more, isDrained, rfl⟩

theorem changes_of_settled {context : BinlogContext} {body more : List BinlogMessage}
    (isDrained : drained = before ++ .begin (some gtid) :: more)
    (isBody : body ++ after = more ++ rest) (inside : ∀ message ∈ body, message.isBegin = false)
    (next : ∀ message ∈ after.head?, message.isBegin = true)
    (settled : changes config ((reader config).after context drained)
      (rest.takeWhile fun message => !message.isBegin) = []) :
    changes config context (before ++ .begin (some gtid) :: body) <+:
      changes config context drained := by
  rcases append_eq_append_iff.mp isBody with ⟨part, isMore, -⟩ | ⟨part, isPart, isRest⟩
  · apply changes_mono
    rw [isDrained, isMore]
    exact (prefix_append_right_inj before).mpr (cons_prefix_cons.mpr ⟨rfl, prefix_append body part⟩)
  · have quiet : (rest.takeWhile fun message => !message.isBegin) = part := by
      rw [isRest]
      have within : ∀ message ∈ part, (!message.isBegin) = true := by
        intro message mem
        rw [inside message (isPart ▸ mem_append_right _ mem)]
        rfl
      rw [takeWhile_append_of_pos within]
      cases after with
      | nil => exact append_nil part
      | cons message after =>
        have stops : (!message.isBegin) = false := by rw [next message rfl]; rfl
        rw [takeWhile_cons, stops]
        exact append_nil part
    have whole : before ++ .begin (some gtid) :: body = drained ++ part := by
      rw [isDrained, isPart, append_assoc, cons_append]
    rw [whole, changes_append, ← quiet, settled, append_nil]

theorem Session.Tracks.covers {numberOf : String → Nat} {log : List BinlogMessage}
    {session : Session} (server : ServerLog numberOf config log)
    (tracks : Tracks config log session drained)
    (settled : config.useGtid = true → session.Settled) :
    Covers numberOf config log session.source.createCheckpoint session.returned := by
  have isGtid : session.source.createCheckpoint =
      if config.useGtid then { gtid := session.source.gtidSet, binlog := none }
      else { gtid := none, binlog := session.source.position } := by
    unfold createCheckpoint
    rw [tracks.sameConfig]
  rw [isGtid]
  constructor
  · intro set isSet before gtid body after isLog inside next covered
    cases useGtid : config.useGtid with
    | false =>
      rw [useGtid] at isSet
      cases isSet
    | true =>
      rw [useGtid, if_pos rfl] at isSet
      have isExecuted := tracks.gtidSet.symm.trans isSet
      have begun : gtid ∈ drained.filterMap gtid? := by
        cases isStart : config.gtidSet with
        | none =>
          rw [isStart, executed_none] at isExecuted
          cases isExecuted
        | some start =>
          rw [isStart] at isExecuted
          refine ((executed_contains isExecuted).mp covered).resolve_left fun old => ?_
          have unknown := server.fresh start isStart gtid (by
            rw [isLog, filterMap_append]
            exact mem_append_right _ mem_cons_self)
          cases unknown.symm.trans old
      obtain ⟨more, isDrained, isRest⟩ := begun_of_once (tracks.isLog.symm.trans isLog)
        (tracks.isLog ▸ server.once) begun
      have quiet := settled useGtid
      unfold Settled at quiet
      rw [tracks.sameConfig, tracks.context] at quiet
      rw [tracks.returned]
      exact changes_of_settled isDrained isRest inside next quiet
  · intro position isPosition before offset after isLog covered
    cases useGtid : config.useGtid with
    | true =>
      rw [useGtid, if_pos rfl] at isPosition
      cases isPosition
    | false =>
      rw [useGtid] at isPosition
      have isReached := tracks.position.symm.trans isPosition
      rw [tracks.returned]
      apply changes_mono
      rcases append_eq_append_iff.mp (tracks.isLog.symm.trans isLog) with
        ⟨more, isBefore, -⟩ | ⟨more, isDrained, -⟩
      · refine absurd ?_ covered
        rw [isBefore]
        exact server.ascending drained more offset after position (isBefore ▸ isLog) isReached
      · exact ⟨more, isDrained.symm⟩

theorem resumes_of_startsAt {reconfig : MySqlCdcConfig} {checkpoint : SourceCheckpoint}
    (starts : StartsAt reconfig checkpoint) : Resumes reconfig checkpoint := by
  constructor
  · intro set isSet
    obtain ⟨useGtid, isStart⟩ := starts.gtid set isSet
    simp only [restart, openSource, new,
      startBinlogStream, useGtid, isStart, if_true, Option.getD_some]
  · intro position isPosition
    obtain ⟨useGtid, isFile, isOffset⟩ := starts.binlog position isPosition
    simp [restart, openSource, new, startBinlogStream, useGtid, isFile, isOffset]

variable (numberOf : String → Nat)

/-- The position of a checkpoint covers only rows that were returned, under the columns of
their own tables, and a restart resumes there. -/
def PositionSound (config reconfig : MySqlCdcConfig)
    (log : List BinlogMessage) (steps : List SessionStep) : Prop :=
  let session := (start config log).run steps
  Covers numberOf config log session.source.createCheckpoint session.returned ∧
    Resumes reconfig session.source.createCheckpoint

/-- Positions are sound if no poll drains rows of tables with different columns, no checkpoint
in GTID mode is taken inside a transaction, and the restarted source is configured to start at
the checkpoint. -/
theorem positionSound_of_uniform {numberOf : String → Nat} {config reconfig : MySqlCdcConfig}
    {log : List BinlogMessage} {steps : List SessionStep} (server : ServerLog numberOf config log)
    (uniform : (start config log).UniformRun steps)
    (settled : config.useGtid = true → ((start config log).run steps).Settled)
    (starts : StartsAt reconfig ((start config log).run steps).source.createCheckpoint) :
    PositionSound numberOf config reconfig log steps := by
  obtain ⟨drained, tracks⟩ := (tracks_start config log).run server.known uniform
  exact ⟨tracks.covers server settled, resumes_of_startsAt starts⟩

def shopConfig : MySqlCdcConfig where
  useGtid := true
  gtidSet := some ⟨[(1, [⟨1, 4⟩])], List.nodup_singleton _⟩
  binlogFilename := none
  binlogPosition := none
  databaseFilter := none
  tableInclude := []
  tableExclude := []

def orderInsert (id : String) : BinlogMessage :=
  .insert ⟨7, "shop", "orders", [[some id]], 300, 0⟩

def shopLog : List BinlogMessage :=
  [.begin (some ⟨1, 5⟩), .tableMap ⟨7, "shop", "orders", ["id"]⟩, orderInsert "1", orderInsert "2",
    .commit 400]

theorem reached_none
    (inPlace : ∀ message ∈ messages, ∀ nextBinlog offset, message ≠ .rotate nextBinlog offset) :
    reached none messages = none := by
  induction messages with
  | nil => rfl
  | cons message messages ih =>
    have rest := ih (forall_mem_cons.mp inPlace).2
    cases message with
    | rotate nextBinlog offset =>
      exact absurd rfl (inPlace _ mem_cons_self nextBinlog offset)
    | begin | commit | tableMap | insert | update | delete | query | heartbeat => exact rest

theorem shopLog_server : ServerLog numberOf shopConfig shopLog := by
  constructor
  · decide
  · intro set isSet
    cases isSet
    decide
  · decide
  · intro first second offset rest position isLog isReached
    have inPlace : ∀ message ∈ shopLog, ∀ nextBinlog offset,
        message ≠ .rotate nextBinlog offset := by
      simp [shopLog, orderInsert]
    have nowhere := reached_none fun message mem =>
      inPlace message (isLog ▸ mem_append_left _ (mem_append_left _ mem))
    cases nowhere.symm.trans isReached

theorem positionSound_shop :
    PositionSound (fun _ => 0) shopConfig
      { shopConfig with gtidSet := some ⟨[(1, [⟨1, 4⟩, ⟨5, 5⟩])], nodup_singleton _⟩ } shopLog
      [.receive, .receive, .receive, .receive, .receive, .poll 10] := by
  refine positionSound_of_uniform (shopLog_server _) ⟨?_, trivial⟩ (fun _ => rfl) ?_
  · unfold UniformPoll
    decide
  · constructor
    · intro set isSet
      cases isSet
      exact ⟨rfl, rfl⟩
    · intro position isPosition
      cases isPosition

/-- A poll of one record drains the first order; the checkpoint covers the second one too. -/
theorem shop_not_positionSound :
    ServerLog (fun _ => 0) shopConfig shopLog ∧
      ∀ reconfig, ¬PositionSound (fun _ => 0) shopConfig reconfig shopLog
        [.receive, .receive, .receive, .receive, .receive, .poll 1] := by
  refine ⟨shopLog_server _, fun reconfig sound => ?_⟩
  have returned := sound.1.gtid _ rfl [] ⟨1, 5⟩
    [.tableMap ⟨7, "shop", "orders", ["id"]⟩, orderInsert "1", orderInsert "2", .commit 400] [] rfl
    (by simp [orderInsert, isBegin]) (nofun) rfl
  exact absurd returned.length_le (by decide)

end LaminarDB.Connectors.MySql
