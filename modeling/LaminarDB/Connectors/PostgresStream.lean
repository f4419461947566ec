import LaminarDB.Connectors.Postgres

/-!
# The replication stream of the Postgres change source

The server sends the committed transactions that end after the LSN at which the connection starts,
in the order of their ends, with keep-alives in between. A connection can be lost at any time; the
next one starts at the LSN that the source has confirmed.
-/

namespace LaminarDB.Connectors.Postgres

open Library List

variable {Tuple : Type}

inductive RowMessage (Tuple : Type) where
  | insert (newTuple : Tuple)
  | update (oldTuple : Option Tuple) (newTuple : Tuple)
  | delete (oldTuple : Tuple)

namespace RowMessage

def toWal (relationId : Nat) : RowMessage Tuple → WalMessage Tuple
  | .insert newTuple => .insert relationId newTuple
  | .update oldTuple newTuple => .update relationId oldTuple newTuple
  | .delete oldTuple => .delete relationId oldTuple

def op : RowMessage Tuple → CdcOperation
  | .insert _ => .insert
  | .update _ _ => .update
  | .delete _ => .delete

def before : RowMessage Tuple → Option Tuple
  | .insert _ => none
  | .update oldTuple _ => oldTuple
  | .delete oldTuple => some oldTuple

def after : RowMessage Tuple → Option Tuple
  | .insert newTuple => some newTuple
  | .update _ newTuple => some newTuple
  | .delete _ => none

end RowMessage

structure RowChange (Tuple : Type) where
  relation : RelationInfo
  walEnd : Lsn
  message : RowMessage Tuple

structure Txn (Tuple : Type) where
  finalLsn : Lsn
  endLsn : Lsn
  commitTsUs : Int
  rows : List (RowChange Tuple)

variable (tupleToJson : Tuple → RelationInfo → String) (config : PostgresCdcConfig)

def Txn.rowEvents (txn : Txn Tuple) (row : RowChange Tuple) : List ChangeEvent :=
  if config.shouldIncludeTable row.relation.fullName then
    [{ table := row.relation.fullName
       op := row.message.op
       lsn := txn.finalLsn
       tsMs := pgTimestampToUnixMs txn.commitTsUs
       before := row.message.before.map (tupleToJson · row.relation)
       after := row.message.after.map (tupleToJson · row.relation) }]
  else []

def Txn.changes (txn : Txn Tuple) : List ChangeEvent :=
  txn.rows.flatMap (txn.rowEvents tupleToJson config)

/-- What a connection has still to send, and the relations that it has described. -/
structure Connection (Tuple : Type) where
  next : List (Txn Tuple)
  current : Option (Txn Tuple × List (RowChange Tuple))
  relations : KeyedMap Nat RelationInfo

inductive ServerMessage where
  | begin
  | relation (info : RelationInfo) (walEnd : Lsn)
  | row
  | commit
  | keepAlive (walEnd : Lsn)

namespace Connection

def start (log : List (Txn Tuple)) (lsn : Lsn) : Connection Tuple where
  next := log.filter fun txn => lsn < txn.endLsn
  current := none
  relations := .empty

variable (connection : Connection Tuple)

def pending : List (Txn Tuple) :=
  (connection.current.map Prod.fst).toList ++ connection.next

/-- The connection after a message and its payload, if the server can send it now. -/
def send :
    ServerMessage → Option (Connection Tuple × WalPayload Tuple)
  | .begin =>
    match connection.current, connection.next with
    | none, txn :: next =>
      some ({ connection with next, current := some (txn, txn.rows) },
        .begin txn.finalLsn txn.commitTsUs)
    | _, _ => none
  | .relation info walEnd =>
    if connection.current.any fun current => walEnd < current.1.endLsn then
      some ({ connection with relations := connection.relations.insert info.relationId info },
        .xLogData walEnd (.message (.relation info)))
    else none
  | .row =>
    match connection.current with
    | some (txn, row :: rows) =>
      if row.walEnd < txn.endLsn ∧
          connection.relations.find? row.relation.relationId = some row.relation then
        some ({ connection with current := some (txn, rows) },
          .xLogData row.walEnd (.message (row.message.toWal row.relation.relationId)))
      else none
    | _ => none
  | .commit =>
    match connection.current with
    | some (txn, []) => some ({ connection with current := none }, .commit txn.endLsn)
    | _ => none
  | .keepAlive walEnd =>
    if connection.pending.all fun txn => walEnd < txn.endLsn then
      some (connection, .keepAlive walEnd)
    else none

end Connection

structure System (Tuple : Type) where
  source : PostgresCdcSource Tuple
  connection : Connection Tuple
  returned : List ChangeEvent
  reconnected : Bool

inductive Action where
  | send (message : ServerMessage)
  | poll (maxRecords : Nat)
  | checkpoint
  | reconnect

def returnedEvents : Except ConnectorError (Option (List ChangeEvent)) → List ChangeEvent
  | .ok (some events) => events
  | _ => []

namespace System

variable (tupleToJson : Tuple → RelationInfo → String) (log : List (Txn Tuple))

def start (source : PostgresCdcSource Tuple) (lsn : Lsn) : System Tuple where
  source := source
  connection := .start log lsn
  returned := []
  reconnected := false

def step (system : System Tuple) : Action → Option (System Tuple)
  | .send message =>
    (system.connection.send message).map fun sent =>
      { system with
        source := { system.source with walRx := system.source.walRx ++ [sent.2] }
        connection := sent.1 }
  | .poll maxRecords =>
    let polled := system.source.pollBatch tupleToJson maxRecords
    some { system with
      source := polled.1
      returned := system.returned ++ returnedEvents polled.2 }
  | .checkpoint => some { system with source := system.source.checkpoint.1 }
  | .reconnect => some { system with
      connection := .start log system.source.confirmedLsn
      reconnected := true }

def run : System Tuple → List Action → Option (System Tuple)
  | system, [] => some system
  | system, action :: actions => (system.step tupleToJson log action).bind (run · actions)

end System

/-- The transaction that is read, with the rows read so far and those to come. -/
structure Progress (Tuple : Type) where
  txn : Txn Tuple
  sent : List (RowChange Tuple)
  rest : List (RowChange Tuple)

structure Reader (Tuple : Type) where
  current : Option (Progress Tuple)
  seen : List (Txn Tuple)
  relations : KeyedMap Nat RelationInfo

section Flow

variable (log : List (Txn Tuple)) (base : Lsn)

def Covered (seen : List (Txn Tuple)) (lsn : Lsn) : Prop :=
  ∀ txn ∈ log, txn.endLsn ≤ lsn → txn.endLsn ≤ base ∨ txn ∈ seen

variable {lsn : Lsn}

theorem Covered.mono {log : List (Txn Tuple)} {base : Lsn} {seen more : List (Txn Tuple)}
    (covered : Covered log base seen lsn) (part : seen ⊆ more) :
    Covered log base more lsn :=
  fun txn mem early => (covered txn mem early).imp_right fun isSeen => part isSeen

inductive Reads : Reader Tuple → WalPayload Tuple → Reader Tuple → Prop where
  | begin (reader : Reader Tuple) (txn : Txn Tuple) :
      Reads reader (.begin txn.finalLsn txn.commitTsUs)
        { reader with current := some ⟨txn, [], txn.rows⟩ }
  | relation (reader : Reader Tuple) (info : RelationInfo) (walEnd : Lsn)
      (covered : Covered log base reader.seen walEnd) :
      Reads reader (.xLogData walEnd (.message (.relation info)))
        { reader with relations := reader.relations.insert info.relationId info }
  | row (reader : Reader Tuple) (txn : Txn Tuple) (sent rest : List (RowChange Tuple))
      (row : RowChange Tuple) (isCurrent : reader.current = some ⟨txn, sent, row :: rest⟩)
      (known : reader.relations.find? row.relation.relationId = some row.relation)
      (covered : Covered log base reader.seen row.walEnd) :
      Reads reader (.xLogData row.walEnd (.message (row.message.toWal row.relation.relationId)))
        { reader with current := some ⟨txn, sent ++ [row], rest⟩ }
  | commit (reader : Reader Tuple) (txn : Txn Tuple)
      (isCurrent : reader.current = some ⟨txn, txn.rows, []⟩)
      (covered : Covered log base (reader.seen ++ [txn]) txn.endLsn) :
      Reads reader (.commit txn.endLsn)
        { reader with current := none, seen := reader.seen ++ [txn] }
  | keepAlive (reader : Reader Tuple) (walEnd : Lsn)
      (covered : Covered log base reader.seen walEnd) :
      Reads reader (.keepAlive walEnd) reader

def Flow : Reader Tuple → List (WalPayload Tuple) → Reader Tuple → Prop
  | reader, [], after => reader = after
  | reader, payload :: payloads, after =>
    ∃ middle, Reads log base reader payload middle ∧ Flow middle payloads after

variable {log base} {after reader : Reader Tuple}

theorem flow_append {first second : List (WalPayload Tuple)} :
    Flow log base reader (first ++ second) after ↔
      ∃ middle, Flow log base reader first middle ∧ Flow log base middle second after := by
  induction first generalizing reader with
  | nil =>
    constructor
    · exact fun flow => ⟨reader, rfl, flow⟩
    · rintro ⟨middle, rfl, flow⟩
      exact flow
  | cons payload first ih =>
    constructor
    · rintro ⟨next, reads, flow⟩
      obtain ⟨middle, before, rest⟩ := ih.mp flow
      exact ⟨middle, ⟨next, reads, before⟩, rest⟩
    · rintro ⟨middle, ⟨next, reads, before⟩, rest⟩
      exact ⟨next, reads, ih.mpr ⟨middle, before, rest⟩⟩

variable {payload : WalPayload Tuple}

theorem Reads.seen (reads : Reads log base reader payload after) : reader.seen <+: after.seen := by
  cases reads with
  | begin | relation | row | keepAlive => exact prefix_refl _
  | commit txn isCurrent covered => exact prefix_append _ _

theorem Flow.seen {payloads : List (WalPayload Tuple)}
    (flow : Flow log base reader payloads after) : reader.seen <+: after.seen := by
  induction payloads generalizing reader with
  | nil =>
    cases flow
    exact prefix_refl _
  | cons payload payloads ih =>
    obtain ⟨middle, reads, rest⟩ := flow
    exact reads.seen.trans (ih rest)

structure Feeds (log : List (Txn Tuple)) (base : Lsn) (reconnected : Bool) (reader : Reader Tuple)
    (connection : Connection Tuple) : Prop where
  relations : ∀ id info, connection.relations.find? id = some info →
    reader.relations.find? id = some info
  current : ∀ txn rest, connection.current = some (txn, rest) →
    ∃ sent, reader.current = some ⟨txn, sent, rest⟩ ∧ txn.rows = sent ++ rest
  complete : ∀ txn ∈ log, base < txn.endLsn → txn ∈ reader.seen ∨ txn ∈ connection.pending
  ascending : connection.pending.Pairwise fun txn later => txn.endLsn < later.endLsn
  order : reconnected = false →
    reader.seen ++ connection.pending = log.filter fun txn => base < txn.endLsn

variable {reconnected : Bool} {connection : Connection Tuple}

theorem Covered.of_complete {seen pending : List (Txn Tuple)}
    (complete : ∀ txn ∈ log, base < txn.endLsn → txn ∈ seen ∨ txn ∈ pending)
    (early : ∀ txn ∈ pending, lsn < txn.endLsn) : Covered log base seen lsn := by
  intro txn mem ended
  by_cases old : txn.endLsn ≤ base
  · exact .inl old
  · apply Or.inr
    apply (complete txn mem (not_le.mp old)).resolve_right
    intro isPending
    exact absurd ended (not_le.mpr (early txn isPending))

theorem Feeds.before_current (feeds : Feeds log base reconnected reader connection)
    {txn : Txn Tuple} {rest : List (RowChange Tuple)}
    (isCurrent : connection.current = some (txn, rest)) (early : lsn < txn.endLsn) :
    ∀ other ∈ connection.pending, lsn < other.endLsn := by
  have ascending := feeds.ascending
  unfold Connection.pending at ascending ⊢
  rw [isCurrent] at ascending ⊢
  intro other mem
  rcases mem_cons.mp mem with rfl | later
  · exact early
  · exact early.trans ((pairwise_cons.mp ascending).1 other later)

theorem Feeds.send {after : Connection Tuple} {message : ServerMessage}
    (feeds : Feeds log base reconnected reader connection)
    (sent : connection.send message = some (after, payload)) :
    ∃ next, Reads log base reader payload next ∧ Feeds log base reconnected next after := by
  obtain ⟨upcoming, current, relations⟩ := connection
  cases message with simp only [Connection.send] at sent
  | begin =>
    cases current with
    | some current => cases sent
    | none =>
      cases upcoming with cases sent
      | cons txn next =>
        refine ⟨_, .begin reader txn, { feeds with current := ?_ }⟩
        rintro _ _ ⟨⟩
        exact ⟨[], rfl, rfl⟩
  | relation info walEnd =>
    split at sent <;> cases sent
    rename_i inside
    obtain ⟨⟨txn, rest⟩, isCurrent, early⟩ := (Option.any_eq_true _ _).mp inside
    have covered := Covered.of_complete feeds.complete
      (feeds.before_current isCurrent (of_decide_eq_true early))
    refine ⟨_, .relation reader info walEnd covered, { feeds with relations := ?_ }⟩
    intro id known isKnown
    rw [KeyedMap.find?_insert] at isKnown ⊢
    split at isKnown
    · rename_i same
      rw [if_pos same]
      exact isKnown
    · rename_i different
      rw [if_neg different]
      exact feeds.relations id known isKnown
  | row =>
    split at sent
    · rename_i txn row rows
      split at sent <;> cases sent
      rename_i possible
      obtain ⟨before, isReading, isRows⟩ := feeds.current txn (row :: rows) rfl
      have covered := Covered.of_complete feeds.complete (feeds.before_current rfl possible.1)
      have known := feeds.relations _ _ possible.2
      refine ⟨_, .row reader txn before rows row isReading known covered,
        { feeds with current := ?_ }⟩
      rintro _ _ ⟨⟩
      exact ⟨before ++ [row], rfl, by rw [isRows, append_assoc]; rfl⟩
    · cases sent
  | commit =>
    split at sent <;> cases sent
    rename_i txn
    obtain ⟨before, isReading, isRows⟩ := feeds.current txn [] rfl
    rw [append_nil] at isRows
    have ascending := pairwise_cons.mp feeds.ascending
    have finished : ∀ other ∈ log, base < other.endLsn →
        other ∈ reader.seen ++ [txn] ∨ other ∈ upcoming := by
      intro other mem later
      rcases feeds.complete other mem later with isSeen | isPending
      · exact .inl (mem_append_left _ isSeen)
      · rcases mem_cons.mp isPending with rfl | isNext
        · exact .inl (mem_append_right _ (mem_singleton_self _))
        · exact .inr isNext
    have covered := Covered.of_complete finished ascending.1
    refine ⟨_, .commit reader txn (isRows ▸ isReading) covered, feeds.relations,
      ?_, finished, ascending.2, ?_⟩
    · rintro _ _ ⟨⟩
    · intro steady
      rw [append_assoc]
      exact feeds.order steady
  | keepAlive walEnd =>
    split at sent <;> cases sent
    rename_i early
    have covered := Covered.of_complete feeds.complete
      fun txn mem => of_decide_eq_true (all_eq_true.mp early txn mem)
    exact ⟨reader, .keepAlive reader walEnd covered, feeds⟩

theorem feeds_start (sorted : log.Pairwise fun txn later => txn.endLsn < later.endLsn)
    (confirmed : Covered log base reader.seen lsn)
    (order : reconnected = false → reader.seen = [] ∧ lsn = base) :
    Feeds log base reconnected reader (.start log lsn) := by
  refine ⟨nofun, nofun, ?_, sorted.filter _, ?_⟩
  · intro txn mem later
    by_cases ended : txn.endLsn ≤ lsn
    · exact .inl ((confirmed txn mem ended).resolve_left (not_le.mpr later))
    · exact .inr (mem_filter.mpr ⟨mem, decide_eq_true (not_le.mp ended)⟩)
  · intro steady
    obtain ⟨nothing, rfl⟩ := order steady
    rw [nothing]
    rfl

end Flow

end LaminarDB.Connectors.Postgres
