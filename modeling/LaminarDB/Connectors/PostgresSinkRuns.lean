import LaminarDB.Connectors.PostgresSink

/-!
# Runs of the Postgres sink

The rows of an epoch become visible in `pre_commit`, before the manifest that covers them is
stored. Until then the visible rows are those of the manifest and those that the next epoch has
recorded, and a process that starts again produces the latter once more.
-/

namespace LaminarDB.Connectors.Sinks.Postgres

open Library List PostgresSink Client

variable {Row : Type} {table : TableConfig Row}

abbrev PostgresSinkRun (table : TableConfig Row) := SinkRun (postgresConnector table)

def databaseOf (world : World (postgresConnector table)) : Database Row :=
  world.target

def sinkOf (process : Process (postgresConnector table)) : PostgresSink Row :=
  process.sink

variable (database : Database Row) {client : Client Row} {epoch : Option Nat}
  {rows accepted batch : List Row}

def Database.Unrecorded (epoch : Nat) : Prop :=
  ∀ rows, (some epoch, rows) ∈ database.transactions → rows = []

/-- Every row that the last manifest covers is visible once, no row is visible without its epoch,
a rolled-back epoch has no visible row, and `pre_commit` drops no row that is not visible. -/
structure DeliversOnce [DecidableEq Row] (run : PostgresSinkRun table) : Prop where
  recovered : ∀ row ∈ run.world.covered, table.applies row = true →
    (databaseOf run.world).rows.count row = 1
  transactional : ∀ rows, (none, rows) ∈ (databaseOf run.world).transactions → rows = []
  rolledBack : ∀ epoch ok, run.world.last = some (.rollbackEpoch epoch, ok) →
    (databaseOf run.world).Unrecorded epoch
  kept : ∀ process epoch, run.process = some process →
    run.world.last = some (.preCommit epoch, true) →
    ∀ row ∈ process.accepted, table.applies row = true → row ∈ (databaseOf run.world).rows

def Attempted (savedEpoch epoch : Nat) : Prop :=
  savedEpoch = epoch ∨ ∃ committed, database.committedEpoch = some committed ∧ epoch ≤ committed

def AllVisible (table : TableConfig Row) (accepted : List Row) : Prop :=
  ∀ row, row ∈ database.rows ↔ row ∈ accepted ∧ table.applies row = true

/-- The steps that keep the guarantee: the timer fires and the sink is closed with an empty
buffer, a second `pre_commit` of an epoch has nothing to add and has seen all that the first one
recorded, and an epoch is rolled back only if none of its rows is visible. -/
def KeepsEpochs (run : PostgresSinkRun table) : SinkEvent (postgresConnector table) → Prop
  | .command (.tick _) => ∀ process, run.process = some process → (sinkOf process).buffer = []
  | .command (.close _ _) =>
    ∀ process, run.process = some process → (sinkOf process).buffer = []
  | .command (.preCommit _) =>
    ∀ process, run.process = some process →
      Attempted (databaseOf run.world) run.world.savedEpoch process.epoch →
      AllVisible (databaseOf run.world) table process.accepted
  | .command (.saveFails _ _) =>
    ∀ process, run.process = some process → (databaseOf run.world).Unrecorded process.epoch
  | .command (.rollbackRecovered _) =>
    ∀ process epoch, run.process = some process → process.phase = .recovering epoch →
      (databaseOf run.world).Unrecorded epoch
  | .command (.beginInitial _ (some _)) =>
    ∀ process, run.process = some process → (databaseOf run.world).Unrecorded process.epoch
  | _ => True

namespace Database

@[simp]
theorem rows_add {database : Database Row} :
    (database.add rows epoch).rows = database.rows ++ rows := by
  simp [Database.rows, add]

end Database

def Session.Quiet (session : Session Row) : Prop :=
  session = .idle ∨ session = .aborted

def Session.OpenWith (rows : List Row) (epoch : Option Nat) (session : Session Row) : Prop :=
  session = .inTransaction rows epoch ∨ session = .aborted

namespace Client

theorem execute_inside (statement : Statement Row) {session : Session Row}
    (opened : client.session.OpenWith rows epoch)
    (succeeds : client.database.execute (.inTransaction rows epoch) statement true =
      (client.database, session, true))
    (fails : client.database.execute (.inTransaction rows epoch) statement false =
      (client.database, .aborted, false))
    (aborted : ∀ ok, client.database.execute .aborted statement ok =
      (client.database, .aborted, false)) :
    client.execute statement = (⟨client.database, session, client.answers.tail⟩, true) ∨
      client.execute statement = (⟨client.database, .aborted, client.answers.tail⟩, false) := by
  unfold execute
  rcases opened with isOpen | isOpen <;> rw [isOpen]
  · cases client.answers.headD false with
    | true => exact .inl (by rw [succeeds])
    | false => exact .inr (by rw [fails])
  · exact .inr (by rw [aborted])

theorem execute_commit (isOpen : client.session = .inTransaction rows epoch) :
    client.execute .commit = (⟨client.database.add rows epoch, .idle, client.answers.tail⟩, true) ∨
      client.execute .commit = (⟨client.database, .idle, client.answers.tail⟩, false) := by
  unfold execute
  rw [isOpen]
  cases client.answers.headD false with
  | true => exact .inl rfl
  | false => exact .inr rfl

theorem execute_rollback (opened : client.session.OpenWith rows epoch) :
    ∃ session : Session Row, session.Quiet ∧
      (client.execute .rollback).1 = ⟨client.database, session, client.answers.tail⟩ := by
  unfold execute
  cases client.answers.headD false with
  | true =>
    refine ⟨.idle, .inl rfl, ?_⟩
    rcases opened with session | session <;> rw [session] <;> rfl
  | false =>
    refine ⟨.aborted, .inr rfl, ?_⟩
    rcases opened with session | session <;> rw [session] <;> rfl

theorem execute_begin (quiet : client.session.Quiet) :
    client.execute .begin = (⟨client.database, .inTransaction [] none, client.answers.tail⟩, true) ∨
      ∃ session : Session Row, session.Quiet ∧
        client.execute .begin = (⟨client.database, session, client.answers.tail⟩, false) := by
  unfold execute
  rcases quiet with session | session <;> rw [session]
  · cases client.answers.headD false with
    | true => exact .inl rfl
    | false => exact .inr ⟨.idle, .inl rfl, rfl⟩
  · exact .inr ⟨.aborted, .inr rfl, rfl⟩

theorem execute_select (quiet : client.session.Quiet) :
    (client.execute .select).1 = ⟨client.database, client.session, client.answers.tail⟩ := by
  unfold execute
  rcases quiet with session | session <;> rw [session] <;> rfl

theorem applyAll_inside {groups : List (List Row)} (opened : client.session.OpenWith rows epoch) :
    (client.applyAll groups).1.database = client.database ∧
      ∃ more, (client.applyAll groups).1.session.OpenWith more epoch ∧
        ((client.applyAll groups).2 = true → more = rows ++ groups.flatten) := by
  induction groups generalizing client rows with
  | nil => exact ⟨rfl, rows, opened, fun _ => by simp⟩
  | cons group groups ih =>
    rcases execute_inside (.apply group) opened rfl rfl fun _ => rfl with applied | failed
    · obtain ⟨same, more, isOpen, all⟩ := @ih ⟨client.database,
        .inTransaction (rows ++ group) epoch, client.answers.tail⟩ (rows ++ group) (.inl rfl)
      simp only [applyAll, applied]
      refine ⟨same, more, isOpen, ?_⟩
      intro succeeded
      rw [all succeeded, flatten_cons, append_assoc]
    · simp only [applyAll, failed]
      exact ⟨trivial, rows, .inr rfl, nofun⟩

end Client

variable {answers : PostgresAnswers} {database : Database Row} {sink : PostgresSink Row}

namespace PostgresSink

variable (table : TableConfig Row) (sink : PostgresSink Row) {encoded : Bool}

theorem flushToClient_inside (opened : client.session.OpenWith [] epoch) :
    let after := flushToClient table sink encoded client
    after.1.database = client.database ∧ ∃ rows, after.1.session.OpenWith rows epoch ∧
      (after.2 = true → rows = (table.groups sink.buffer.flatten).flatten) := by
  obtain ⟨same, stillOpen⟩ : (client.execute .setTimeout).1.database = client.database ∧
      (client.execute .setTimeout).1.session.OpenWith [] epoch := by
    rcases execute_inside .setTimeout opened rfl rfl fun _ => rfl with set | failed
    · rw [set]
      exact ⟨rfl, .inl rfl⟩
    · rw [failed]
      exact ⟨rfl, .inr rfl⟩
  cases encoded with
  | false => exact ⟨same, [], stillOpen, nofun⟩
  | true =>
    obtain ⟨sameAgain, rows, isOpen, all⟩ := applyAll_inside stillOpen
    exact ⟨sameAgain.trans same, rows, isOpen, all⟩

theorem record_cases {epoch : Nat} (quiet : client.session.Quiet) :
    sink.record table epoch encoded client =
        ⟨client.database.add (table.groups sink.buffer.flatten).flatten (some epoch),
          { sink with buffer := [], session := .idle }, true⟩ ∨
      ∃ session : Session Row, session.Quiet ∧
        sink.record table epoch encoded client =
          ⟨client.database, { sink with session }, false⟩ := by
  unfold record
  rcases execute_begin quiet with begun | ⟨session, isQuiet, failed⟩
  · rw [begun]
    have opens : (⟨client.database, .inTransaction [] none, client.answers.tail⟩ :
      Client Row).session.OpenWith [] none := .inl rfl
    obtain ⟨same, rows, isOpen, all⟩ := flushToClient_inside table sink opens
    cases flushed : flushToClient table sink encoded
        ⟨client.database, .inTransaction [] none, client.answers.tail⟩ with
    | mk applied ok =>
      rw [flushed] at same isOpen all
      have sameDatabase : applied.database = client.database := same
      cases ok with
      | false =>
        obtain ⟨session, isQuiet, rolledBack⟩ := execute_rollback isOpen
        refine .inr ⟨session, isQuiet, ?_⟩
        simp only [flushed, rolledBack, release, sameDatabase]
      | true =>
        obtain rfl := all rfl
        rcases execute_inside (.mark epoch) isOpen rfl rfl fun _ => rfl with marked | failed
        · rcases @execute_commit _ ⟨applied.database, _, applied.answers.tail⟩ (some epoch)
            (table.groups sink.buffer.flatten).flatten rfl with committed | failed
          · left
            simp only [flushed, marked, committed, release]
            rw [sameDatabase]
          · refine .inr ⟨.idle, .inl rfl, ?_⟩
            simp only [flushed, marked, failed, release]
            rw [sameDatabase]
        · refine .inr ⟨.aborted, .inr rfl, ?_⟩
          simp only [flushed, failed, release, sameDatabase]
  · rw [failed]
    exact .inr ⟨session, isQuiet, rfl⟩

/-- The outcomes of `pre_commit`: it fails without effect, has nothing to write, finds the epoch
recorded, or records the rows with their epoch. -/
inductive PreCommits (database : Database Row) (epoch : Nat) :
    Effect (Database Row) (PostgresSink Row) → Prop where
  | failed {session : Session Row} (quiet : session.Quiet) :
      PreCommits database epoch ⟨database, { sink with session }, false⟩
  | nothing (empty : sink.buffer = []) : PreCommits database epoch ⟨database, sink, true⟩
  | skipped {committed : Nat} {session : Session Row} (quiet : session.Quiet)
      (isCommitted : database.committedEpoch = some committed) (later : epoch ≤ committed) :
      PreCommits database epoch ⟨database, { sink with buffer := [], session }, true⟩
  | recorded
      (earlier : ∀ committed, database.committedEpoch = some committed → committed < epoch) :
      PreCommits database epoch
        ⟨database.add (table.groups sink.buffer.flatten).flatten (some epoch),
          { sink with buffer := [], session := .idle }, true⟩

theorem isEpochCommitted_cases {epoch : Nat} (quiet : client.session.Quiet) :
    ∃ answer, client.isEpochCommitted epoch =
        (⟨client.database, client.session, client.answers.tail⟩, answer) ∧
      (answer = some true →
        ∃ committed, client.database.committedEpoch = some committed ∧ epoch ≤ committed) ∧
      (answer = some false →
        ∀ committed, client.database.committedEpoch = some committed → committed < epoch) := by
  have reads : client.database.readEpoch client.session = client.database.committedEpoch := by
    rcases quiet with idle | aborted
    · rw [idle]
      rfl
    · rw [aborted]
      rfl
  have selects := execute_select quiet
  unfold isEpochCommitted
  rw [reads]
  split
  · rename_i selected isSelected
    rw [isSelected] at selects
    exact ⟨none, by rw [← selects], nofun, nofun⟩
  · rename_i selected isSelected
    rw [isSelected] at selects
    split
    · rename_i uncommitted
      refine ⟨some false, by rw [← selects], nofun, ?_⟩
      intro _ committed isCommitted
      exact nomatch uncommitted.symm.trans isCommitted
    · rename_i committed isCommitted
      refine ⟨some (decide (epoch ≤ committed)), by rw [← selects], ?_, ?_⟩
      · intro later
        exact ⟨committed, isCommitted, of_decide_eq_true (Option.some.inj later)⟩
      · intro earlier other isOther
        cases isCommitted.symm.trans isOther
        exact Nat.not_le.mp (of_decide_eq_false (Option.some.inj earlier))

theorem checkout_quiet
    (quiet : sink.session.Quiet) (isClient : sink.checkout database answers = some client) :
    client.database = database ∧ client.session.Quiet := by
  unfold checkout at isClient
  split at isClient
  · exact nomatch isClient
  · cases isClient
    exact ⟨rfl, quiet⟩
  · cases isClient
    exact ⟨rfl, .inl rfl⟩

theorem preCommit_preCommits (database : Database Row) (epoch : Nat) (answers : PostgresAnswers)
    (quiet : sink.session.Quiet) :
    PreCommits table sink database epoch (preCommit table database sink epoch answers) := by
  unfold preCommit
  split
  · exact .failed quiet
  · split
    · next isEmpty => exact .nothing (isEmpty_iff.mp isEmpty)
    · split
      · exact .failed quiet
      · rename_i client isClient
        obtain ⟨rfl, isQuiet⟩ := checkout_quiet sink quiet isClient
        obtain ⟨answer, reads, isCommitted, isEarlier⟩ := isEpochCommitted_cases isQuiet
        rw [reads]
        cases answer with
        | none => exact .failed isQuiet
        | some committed =>
          cases committed with
          | true =>
            obtain ⟨last, isLast, later⟩ := isCommitted rfl
            exact .skipped isQuiet isLast later
          | false =>
            show PreCommits table sink client.database epoch
              (sink.record table epoch answers.encoded _)
            rcases @record_cases _ ⟨client.database, client.session, client.answers.tail⟩ table sink
              answers.encoded epoch isQuiet with recorded | ⟨session, isSession, failed⟩
            · rw [recorded]
              exact .recorded (isEarlier rfl)
            · rw [failed]
              exact .failed isSession

end PostgresSink

namespace TableConfig

variable (table : TableConfig Row)

theorem mem_groups {row : Row} :
    row ∈ (table.groups rows).flatten ↔ row ∈ rows ∧ table.applies row = true := by
  unfold groups applies
  cases table.isChangelog with
  | false => simp [flatten_filter_not_isEmpty]
  | true =>
    simp only [if_true, flatten_filter_not_isEmpty, flatten_cons, flatten_nil, append_nil,
      mem_append, mem_filter, Bool.not_true, Bool.false_or, Bool.or_eq_true]
    exact and_or_left.symm

theorem nodup_groups (distinct : rows.Nodup) : (table.groups rows).flatten.Nodup := by
  unfold groups
  split
  · simp only [flatten_filter_not_isEmpty, flatten_cons, flatten_nil, append_nil]
    refine nodup_append'.mpr ⟨distinct.filter _, distinct.filter _, ?_⟩
    intro row upserted deleted
    have isUpsert := (mem_filter.mp upserted).2
    exact nomatch (Changelog.isDelete_of_isUpsert isUpsert).symm.trans (mem_filter.mp deleted).2
  · simpa [flatten_filter_not_isEmpty] using distinct

end TableConfig

/-- The database, against the last manifest. Rows beyond the manifest have been recorded in the
epoch after it. -/
structure Intact (table : TableConfig Row) (database : Database Row) (savedEpoch : Nat)
    (covered : List Row) : Prop where
  once : database.rows.Nodup
  applied : ∀ row ∈ database.rows, table.applies row = true
  delivered : ∀ row ∈ covered, table.applies row = true → row ∈ database.rows
  transactional : ∀ rows, (none, rows) ∈ database.transactions → rows = []
  marked : ∀ committed, database.committedEpoch = some committed → committed ≤ savedEpoch + 1
  epochs : ∀ epoch rows, (some epoch, rows) ∈ database.transactions →
    ∃ committed, database.committedEpoch = some committed ∧ epoch ≤ committed
  beyond : (∀ row ∈ database.rows, row ∈ covered) ∨ database.committedEpoch = some (savedEpoch + 1)

def Database.Before (database : Database Row) (epoch : Nat) : Prop :=
  ∀ committed, database.committedEpoch = some committed → committed < epoch

structure Sound (table : TableConfig Row) (database : Database Row) (savedEpoch : Nat)
    (covered : List Row) (sink : PostgresSink Row) (epoch : Nat) (accepted : List Row) : Prop
    extends Intact table database savedEpoch covered where
  quiet : sink.session.Quiet
  knows : ∀ row ∈ covered, row ∈ accepted
  buffered : ∀ row ∈ sink.buffer.flatten, row ∈ accepted ∧ row ∉ covered
  distinct : sink.buffer.flatten.Nodup
  stored : savedEpoch ≤ epoch
  next : epoch ≤ savedEpoch + 1
  reached : ∀ committed, database.committedEpoch = some committed → committed ≤ epoch
  waiting : savedEpoch < epoch → database.Before epoch →
    ∀ row ∈ accepted, row ∈ covered ∨ row ∈ sink.buffer.flatten

section Calls

variable {savedEpoch epoch : Nat} {covered : List Row}
  (visible : Attempted database savedEpoch epoch → AllVisible database table accepted)

section

variable (sound : Sound table database savedEpoch covered sink epoch accepted)

include sound

theorem Sound.within (before : database.Before epoch) : ∀ row ∈ database.rows, row ∈ covered := by
  rcases sound.beyond with within | marked
  · exact within
  · exact absurd (before _ marked) (Nat.not_lt.mpr sound.next)

theorem Sound.write [DecidableEq Row] (fresh : Fresh accepted batch) :
    Sound table database savedEpoch covered (sink.writeBatch batch) epoch (accepted ++ batch) := by
  have isBuffer : (sink.writeBatch batch).buffer.flatten = sink.buffer.flatten ++ batch := by
    unfold writeBatch
    split
    · rename_i isEmpty
      rw [isEmpty_iff.mp isEmpty, append_nil]
    · simp
  have sameSession : (sink.writeBatch batch).session = sink.session := by
    unfold writeBatch
    split <;> rfl
  refine
    { sound with
      quiet := by rw [sameSession]; exact sound.quiet
      knows := fun row mem => mem_append_left _ (sound.knows row mem)
      buffered := ?_
      distinct := ?_
      waiting := ?_ }
  · intro row mem
    rw [isBuffer] at mem
    rcases mem_append.mp mem with before | new
    · exact ⟨mem_append_left _ (sound.buffered row before).1, (sound.buffered row before).2⟩
    · exact ⟨mem_append_right _ new, fun known => fresh.2 row new (sound.knows row known)⟩
  · rw [isBuffer]
    refine nodup_append'.mpr ⟨sound.distinct, fresh.1, ?_⟩
    intro row before new
    exact fresh.2 row new (sound.buffered row before).1
  · intro unstored before row mem
    rw [isBuffer]
    rcases mem_append.mp mem with known | new
    · exact (sound.waiting unstored before row known).imp_right (mem_append_left _)
    · exact .inr (mem_append_right _ new)

theorem Sound.attempted_or :
    Attempted database savedEpoch epoch ∨ savedEpoch < epoch ∧ database.Before epoch := by
  rcases Nat.lt_or_eq_of_le sound.stored with unstored | stored
  · by_cases before : database.Before epoch
    · exact .inr ⟨unstored, before⟩
    · simp only [Database.Before, not_forall, Nat.not_lt] at before
      obtain ⟨committed, isCommitted, later⟩ := before
      exact .inl (.inr ⟨committed, isCommitted, later⟩)
  · exact .inl (.inl stored)

include visible in
theorem Sound.allVisible (empty : sink.buffer = []) : AllVisible database table accepted := by
  rcases sound.attempted_or with attempted | ⟨unstored, before⟩
  · exact visible attempted
  · intro row
    refine ⟨?_, ?_⟩
    · intro mem
      exact ⟨sound.knows row (sound.within before row mem), sound.applied row mem⟩
    · rintro ⟨known, applies⟩
      rcases sound.waiting unstored before row known with isCovered | waits
      · exact sound.delivered row isCovered applies
      · rw [empty] at waits
        exact nomatch waits

end

section Recorded

variable (sound : Sound table database savedEpoch covered sink epoch accepted)
  (visible : Attempted database savedEpoch epoch → AllVisible database table accepted)
  (before : database.Before epoch)

include sound visible before

theorem Sound.recorded_visible :
    AllVisible (database.add (table.groups sink.buffer.flatten).flatten (some epoch)) table
      accepted := by
  intro row
  rw [Database.rows_add, mem_append, table.mem_groups]
  refine ⟨?_, ?_⟩
  · rintro (mem | ⟨waits, applies⟩)
    · exact ⟨sound.knows row (sound.within before row mem), sound.applied row mem⟩
    · exact ⟨(sound.buffered row waits).1, applies⟩
  · rintro ⟨known, applies⟩
    rcases sound.attempted_or with attempted | ⟨unstored, _⟩
    · exact .inl ((visible attempted row).mpr ⟨known, applies⟩)
    · rcases sound.waiting unstored before row known with isCovered | waits
      · exact .inl (sound.delivered row isCovered applies)
      · exact .inr ⟨waits, applies⟩

theorem Sound.recorded_beyond :
    (∀ row ∈ (database.add (table.groups sink.buffer.flatten).flatten (some epoch)).rows,
        row ∈ covered) ∨
      (database.add (table.groups sink.buffer.flatten).flatten (some epoch)).committedEpoch =
        some (savedEpoch + 1) := by
  rcases Nat.lt_or_eq_of_le sound.stored with unstored | stored
  · right
    have isNext := Nat.le_antisymm sound.next unstored
    rw [isNext]
    rfl
  · left
    intro row mem
    rw [Database.rows_add, mem_append, table.mem_groups] at mem
    rcases mem with written | ⟨waits, applies⟩
    · exact sound.within before row written
    · have written := (visible (.inl stored) row).mpr ⟨(sound.buffered row waits).1, applies⟩
      exact absurd (sound.within before row written) (sound.buffered row waits).2

theorem Sound.recorded :
    Sound table (database.add (table.groups sink.buffer.flatten).flatten (some epoch)) savedEpoch
      covered { sink with buffer := [], session := .idle } epoch accepted := by
  refine
    { sound with
      once := ?_
      applied := fun row mem => ((sound.recorded_visible visible before row).mp mem).2
      delivered := ?_
      transactional := ?_
      marked := ?_
      epochs := ?_
      beyond := sound.recorded_beyond visible before
      quiet := .inl rfl
      buffered := nofun
      distinct := nodup_nil
      reached := ?_
      waiting := fun _ earlier => absurd (earlier epoch rfl) (Nat.lt_irrefl _) }
  · rw [Database.rows_add]
    refine nodup_append'.mpr ⟨sound.once, table.nodup_groups sound.distinct, ?_⟩
    intro row written waits
    have waiting := (table.mem_groups.mp waits).1
    exact (sound.buffered row waiting).2 (sound.within before row written)
  · intro row isCovered applies
    rw [Database.rows_add]
    exact mem_append_left _ (sound.delivered row isCovered applies)
  · intro rows mem
    rcases mem_append.mp mem with earlier | new
    · exact sound.transactional rows earlier
    · exact nomatch mem_singleton.mp new
  · rintro _ ⟨⟩
    exact sound.next
  · intro other rows mem
    rcases mem_append.mp mem with earlier | new
    · obtain ⟨committed, isCommitted, within⟩ := sound.epochs other rows earlier
      exact ⟨epoch, rfl, Nat.le_of_lt (Nat.lt_of_le_of_lt within (before _ isCommitted))⟩
    · cases mem_singleton.mp new
      exact ⟨epoch, rfl, Nat.le_refl _⟩
  · rintro _ ⟨⟩
    exact Nat.le_refl _

end Recorded

section

variable (sound : Sound table database savedEpoch covered sink epoch accepted)

include sound

include visible in
theorem Sound.preCommit {effect : Effect (Database Row) (PostgresSink Row)}
    (preCommits : PreCommits table sink database epoch effect) :
    Sound table effect.target savedEpoch covered effect.sink epoch accepted ∧
      (effect.ok = true → effect.sink.buffer = [] ∧ AllVisible effect.target table accepted) := by
  cases preCommits with
  | failed quiet => exact ⟨{ sound with quiet }, nofun⟩
  | nothing empty => exact ⟨sound, fun _ => ⟨empty, sound.allVisible visible empty⟩⟩
  | skipped quiet isCommitted later =>
    refine ⟨?_, fun _ => ⟨rfl, visible (.inr ⟨_, isCommitted, later⟩)⟩⟩
    exact
      { sound with
        quiet
        buffered := nofun
        distinct := nodup_nil
        waiting := fun _ before => absurd (before _ isCommitted) (Nat.not_lt.mpr later) }
  | recorded before =>
    exact ⟨sound.recorded visible before, fun _ => ⟨rfl, sound.recorded_visible visible before⟩⟩

theorem Sound.store (empty : sink.buffer = []) (visible : AllVisible database table accepted) :
    Sound table database epoch accepted sink epoch accepted :=
  { sound with
    delivered := fun row known applies => (visible row).mpr ⟨known, applies⟩
    marked := fun _ isCommitted => Nat.le_succ_of_le (sound.reached _ isCommitted)
    beyond := .inl fun row mem => ((visible row).mp mem).1
    knows := fun _ mem => mem
    buffered := by simp [empty]
    stored := Nat.le_refl _
    next := Nat.le_succ _
    waiting := fun unstored => absurd unstored (Nat.lt_irrefl _) }

theorem Sound.advance (isSaved : savedEpoch = epoch) (covers : ∀ row ∈ accepted, row ∈ covered) :
    Sound table database savedEpoch covered sink (epoch + 1) accepted :=
  { sound with
    stored := Nat.le_succ_of_le sound.stored
    next := Nat.succ_le_succ (Nat.le_of_eq isSaved.symm)
    reached := fun _ isCommitted => Nat.le_succ_of_le (sound.reached _ isCommitted)
    waiting := fun _ _ row known => .inl (covers row known) }

end

end Calls

def Stands (table : TableConfig Row) (database : Database Row) (savedEpoch : Nat)
    (covered : List Row) (sink : PostgresSink Row) (epoch : Nat) (accepted : List Row) :
    Phase → Prop
  | .recovering _ => sink.buffer = []
  | .starting => sink.buffer = []
  | .running => True
  | .preCommitted => sink.buffer = [] ∧ AllVisible database table accepted
  | .persisted => sink.buffer = [] ∧ savedEpoch = epoch ∧ ∀ row ∈ accepted, row ∈ covered
  | .decided _ => sink.buffer = [] ∧ savedEpoch = epoch ∧ ∀ row ∈ accepted, row ∈ covered
  | .stopping => True

variable (world : World (postgresConnector table))

structure Busy (process : Process (postgresConnector table)) : Prop where
  sound : Sound table (databaseOf world) world.savedEpoch world.covered (sinkOf process)
    process.epoch process.accepted
  stands : Stands table (databaseOf world) world.savedEpoch world.covered (sinkOf process)
    process.epoch process.accepted process.phase
  rolledBack : ∀ epoch ok, world.last = some (.rollbackEpoch epoch, ok) →
    (databaseOf world).Unrecorded epoch
  kept : ∀ epoch, world.last = some (.preCommit epoch, true) →
    ∀ row ∈ process.accepted, table.applies row = true → row ∈ (databaseOf world).rows

structure Idle : Prop where
  intact : Intact table (databaseOf world) world.savedEpoch world.covered
  ended : world.last = none

theorem Idle.initially : Idle (SinkRun.initial (postgresConnector table)).world where
  intact :=
    { once := nodup_nil
      applied := nofun
      delivered := nofun
      transactional := nofun
      marked := nofun
      epochs := nofun
      beyond := .inl nofun }
  ended := rfl

variable {process : Process (postgresConnector table)} {world : World (postgresConnector table)}
  {epoch : Nat}

theorem Idle.start (idle : Idle world)
    (opened : openSink table (databaseOf world) answers = some sink) :
    Busy world (.start world.saved sink) := by
  obtain ⟨empty, isIdle⟩ : sink.buffer = [] ∧ sink.session = .idle := by
    unfold openSink at opened
    split at opened
    · exact nomatch opened
    · split at opened
      · exact nomatch opened
      · obtain ⟨_, isSink⟩ := Option.ite_none_right_eq_some.mp opened
        cases isSink
        exact ⟨rfl, rfl⟩
  have sound : Sound table (databaseOf world) world.savedEpoch world.covered sink
      (world.savedEpoch + 1) world.covered :=
    { idle.intact with
      quiet := .inl isIdle
      knows := fun _ mem => mem
      buffered := by simp [empty]
      distinct := by simp [empty]
      stored := Nat.le_succ _
      next := Nat.le_refl _
      reached := idle.intact.marked
      waiting := fun _ _ _ mem => .inl mem }
  have quietWorld : ∀ {call : SinkCall Row} {ok : Bool}, world.last ≠ some (call, ok) := by
    intro call ok isLast
    exact nomatch idle.ended.symm.trans isLast
  obtain ⟨phase, isPhase, starts⟩ := Process.start_eq
  rw [starts]
  refine ⟨sound, ?_, fun _ _ isLast => absurd isLast quietWorld,
    fun _ isLast => absurd isLast quietWorld⟩
  rcases isPhase with rfl | rfl <;> exact empty

theorem Busy.ends (busy : Busy world process) : Idle { world with last := none } :=
  ⟨{ busy.sound.toIntact with }, rfl⟩

theorem flush_unchanged (empty : sink.buffer = []) :
    flush table database sink answers = ⟨database, sink, true⟩ :=
  if_pos (by simp [empty])

theorem Sound.mark (marked : Bool)
    (sound : Sound table (databaseOf world) world.savedEpoch world.covered sink epoch accepted) :
    Sound table (databaseOf world) (world.mark marked).savedEpoch (world.mark marked).covered sink
      epoch accepted := by
  rw [World.mark_savedEpoch, World.mark_covered]
  exact sound

section Commands

variable [DecidableEq Row] (answers : PostgresAnswers)

section

variable (busy : Busy world process)

include busy

theorem Busy.tick (empty : (sinkOf process).buffer = []) :
    ((handle world process .flush answers).goto process.phase).Holds Idle Busy := by
  have called : (postgresConnector table).call world.target process.sink .flush answers =
      ⟨world.target, process.sink, true⟩ := flush_unchanged empty
  rw [handle_eq rfl called]
  exact ⟨busy.sound, busy.stands, nofun, nofun⟩

theorem Busy.write (fresh : Fresh process.accepted batch) :
    ((handle world process (.writeBatch batch) answers).goto .running).Holds Idle Busy :=
  ⟨busy.sound.write fresh, trivial, nofun, nofun⟩

theorem Busy.preCommit (visible : Attempted (databaseOf world) world.savedEpoch process.epoch →
      AllVisible (databaseOf world) table process.accepted) :
    ((handle world process (.preCommit process.epoch) answers).goto
      (if (handle world process (.preCommit process.epoch) answers).ok then .preCommitted
        else .running)).Holds Idle Busy := by
  cases poisoned : process.refuses (.preCommit process.epoch) with
  | true =>
    rw [handle_refused poisoned]
    exact ⟨busy.sound, trivial, nofun, nofun⟩
  | false =>
    have preCommits := preCommit_preCommits table (sinkOf process)
      (databaseOf world) process.epoch answers busy.sound.quiet
    cases isEffect : PostgresSink.preCommit table (databaseOf world) (sinkOf process)
        process.epoch answers with
    | mk target sink ok =>
      rw [isEffect] at preCommits
      obtain ⟨sound, whenOk⟩ := busy.sound.preCommit visible preCommits
      rw [handle_eq poisoned isEffect]
      cases ok with
      | false => exact ⟨sound, trivial, nofun, nofun⟩
      | true =>
        refine ⟨sound, whenOk rfl, nofun, ?_⟩
        intro _ _ row known applies
        exact ((whenOk rfl).2 row).mpr ⟨known, applies⟩

end

section

variable (sound : Sound table (databaseOf world) world.savedEpoch world.covered (sinkOf process)
    process.epoch process.accepted) {phase : Phase}

include sound

theorem rollback_holds (empty : (sinkOf process).buffer = [])
    (unrecorded : (databaseOf world).Unrecorded epoch)
    (stands : Stands table (databaseOf world) world.savedEpoch world.covered (sinkOf process)
      process.epoch process.accepted phase) :
    ((handle world process (.rollbackEpoch epoch) answers).goto phase).Holds Idle Busy := by
  have sameSink : { sinkOf process with buffer := [] } = sinkOf process := by
    rw [← empty]
  have called : (postgresConnector table).call world.target process.sink (.rollbackEpoch epoch)
      answers = ⟨world.target, process.sink, true⟩ :=
    congrArg (fun sink => Effect.mk (databaseOf world) sink true) sameSink
  rw [handle_eq rfl called]
  refine ⟨sound, stands, ?_, nofun⟩
  intro other ok isLast
  cases isLast
  exact unrecorded

theorem beginEpoch_holds (running : phase = .running ∨ phase = .stopping) :
    ((handle world process (.beginEpoch process.epoch) answers).goto phase).Holds Idle Busy := by
  refine ⟨{ sound with }, ?_, nofun, nofun⟩
  rcases running with rfl | rfl <;> trivial

theorem begin_holds (empty : (sinkOf process).buffer = []) {undo : Option PostgresAnswers}
    (unrecorded : undo ≠ none → (databaseOf world).Unrecorded process.epoch)
    (running : phase = .running ∨ phase = .stopping) :
    ((beginEpoch world process answers undo).goto phase).Holds Idle Busy := by
  have begun := beginEpoch_holds answers sound running
  rcases beginEpoch_cases world process with kept | ⟨undoing, isUndo, undone⟩
  · rw [kept]
    exact begun
  · rw [undone]
    show SinkRun.Holds Idle Busy (Handled.goto (handle _ _ (.rollbackEpoch process.epoch)
      undoing) phase)
    refine rollback_holds undoing begun.sound empty (unrecorded (by simp [isUndo])) ?_
    rcases running with rfl | rfl <;> trivial

end

theorem Busy.commanded {command : Command (postgresConnector table)} {next : PostgresSinkRun table}
    (busy : Busy world process) (keeps : KeepsEpochs ⟨world, some process⟩ (.command command))
    (steps : process.Steps world command next) : next.Holds Idle Busy := by
  have stands := busy.stands
  cases steps with
  | rollbackRecovered phase =>
    rw [phase] at stands
    exact rollback_holds _ busy.sound stands (keeps process _ rfl phase) stands
  | @beginInitial answers undo phase =>
    rw [phase] at stands
    refine begin_holds _ busy.sound stands ?_ ?_
    · intro isUndo
      cases undo with
      | none => exact absurd rfl isUndo
      | some undoing => exact keeps process rfl
    · split
      · exact .inl rfl
      · exact .inr rfl
  | write phase fresh => exact busy.write _ fresh
  | tick => exact busy.tick _ (keeps process rfl)
  | preCommit phase => exact busy.preCommit _ (keeps process rfl)
  | abandon phase => exact ⟨busy.sound, trivial, busy.rolledBack, busy.kept⟩
  | save phase =>
    rw [phase] at stands
    obtain ⟨empty, visible⟩ := stands
    exact ⟨busy.sound.store empty visible, ⟨empty, rfl, fun _ mem => mem⟩,
      busy.rolledBack, busy.kept⟩
  | @saveFails stored answers phase =>
    rw [phase] at stands
    obtain ⟨empty, visible⟩ := stands
    cases stored with
    | false => exact rollback_holds _ busy.sound empty (keeps process rfl) trivial
    | true =>
      have stored := busy.sound.store empty visible
      have unrecorded : (databaseOf (world.store process)).Unrecorded process.epoch :=
        keeps process rfl
      exact rollback_holds _ stored empty unrecorded trivial
  | @commit answers phase =>
    rw [phase] at stands
    cases poisoned : process.refuses (.commitEpoch process.epoch) with
    | true =>
      rw [handle_refused poisoned]
      exact ⟨busy.sound, stands, nofun, nofun⟩
    | false =>
      obtain ⟨last, ok, committed⟩ : ∃ last ok, (sinkOf process).commitEpoch process.epoch =
          ({ sinkOf process with lastCommittedEpoch := last }, ok) := by
        unfold commitEpoch
        split
        · exact ⟨_, false, rfl⟩
        · exact ⟨_, true, rfl⟩
      have called : (postgresConnector table).call world.target process.sink
          (.commitEpoch process.epoch) answers =
            ⟨world.target, { sinkOf process with lastCommittedEpoch := last }, ok⟩ :=
        congrArg (fun result => Effect.mk (databaseOf world) result.1 result.2) committed
      rw [handle_eq poisoned called]
      cases ok with
      | true | false => exact ⟨{ busy.sound with }, stands, nofun, nofun⟩
  | @finish updated answers undo phase =>
    rw [phase] at stands
    obtain ⟨empty, isSaved, covers⟩ := stands
    have sound := busy.sound.advance isSaved covers
    have unrecorded : (databaseOf world).Unrecorded (process.epoch + 1) := by
      intro rows mem
      obtain ⟨committed, isCommitted, later⟩ := busy.sound.epochs _ rows mem
      exact absurd later (Nat.not_le.mpr (Nat.lt_succ_of_le (busy.sound.reached _ isCommitted)))
    cases updated with
    | false =>
      refine begin_holds _ sound ?_ (fun _ => ?_) (.inl rfl)
      · exact empty
      · exact unrecorded
    | true =>
      refine begin_holds _ (sound.mark true) ?_ (fun _ => ?_) (.inl rfl)
      · exact empty
      · exact unrecorded
  | @fallShort status marked phase =>
    cases marked with
    | none => exact ⟨busy.sound, trivial, busy.rolledBack, busy.kept⟩
    | some marked =>
      exact ⟨busy.sound.mark marked, trivial, busy.rolledBack, busy.kept⟩
  | close phase =>
    have empty := keeps process rfl
    have flushes : ∀ answers, (postgresConnector table).call world.target process.sink .flush
        answers = ⟨world.target, process.sink, true⟩ :=
      fun answers => flush_unchanged empty
    have closes : ∀ answers, (postgresConnector table).call world.target process.sink .close
        answers = ⟨world.target, process.sink, true⟩ :=
      fun answers => congrArg (fun effect : Effect (Database Row) (PostgresSink Row) =>
        { effect with ok := true }) (flush_unchanged empty)
    rw [close_unchanged (flushes _) (closes _)]
    exact busy.ends

end Commands

/-- In runs whose steps keep the epochs apart, every row is delivered once. -/
theorem deliversOnce_of_reaches [DecidableEq Row] {run : PostgresSinkRun table}
    (reached : (sinkRuns (postgresConnector table)).Reaches KeepsEpochs run) :
    DeliversOnce run := by
  have holds : run.Holds Idle Busy := by
    refine holds_of_reaches Idle.initially ?_ ?_ ?_ reached
    · intro world answers sink idle _ opened
      exact idle.start opened
    · intro world process command next busy keeps steps
      exact busy.commanded keeps steps
    · intro world process busy _
      exact busy.ends
  obtain ⟨world, process⟩ := run
  cases process with
  | none =>
    refine ⟨?_, holds.intact.transactional, ?_, nofun⟩
    · intro row isCovered applies
      exact count_eq_one_of_mem holds.intact.once (holds.intact.delivered row isCovered applies)
    · intro epoch ok isLast
      exact nomatch holds.ended.symm.trans isLast
  | some process =>
    refine ⟨?_, holds.sound.transactional, holds.rolledBack, ?_⟩
    · intro row isCovered applies
      exact count_eq_one_of_mem holds.sound.once (holds.sound.delivered row isCovered applies)
    · intro same epoch isProcess isLast
      cases isProcess
      exact holds.kept epoch isLast

def appendTable : TableConfig Nat := ⟨⟨.append, false⟩, fun _ => none⟩

def accepting : PostgresAnswers := ⟨.pooled, true, replicate 6 true⟩

def after (events : List (SinkEvent (postgresConnector appendTable))) :
    PostgresSinkRun appendTable :=
  ((sinkRuns _).run (.initial _) events).getD (.initial _)

def firstEpoch : List (SinkEvent (postgresConnector appendTable)) :=
  [.start accepting, .command (.beginInitial accepting none), .command (.write [1] accepting),
    .command (.preCommit accepting)]

theorem reaches_firstEpoch :
    (sinkRuns (postgresConnector appendTable)).Reaches KeepsEpochs (after firstEpoch) := by
  have initially : (sinkRuns _).Reaches KeepsEpochs (after []) := .initial rfl
  have started := initially.next (.start accepting) trivial rfl
  have begun := started.next (.command (.beginInitial accepting none)) trivial rfl
  have written := begun.next (.command (.write [1] accepting)) trivial rfl
  have keeps : KeepsEpochs (after (firstEpoch.take 3)) (.command (.preCommit accepting)) := by
    intro process isProcess attempted
    cases isProcess
    rcases attempted with stored | ⟨committed, isCommitted, _⟩
    · exact nomatch stored
    · exact nomatch isCommitted
  exact written.next (.command (.preCommit accepting)) keeps rfl

theorem deliversOnce_of_reaches_saved :
    DeliversOnce (after (firstEpoch ++ [.command .save])) ∧
      (databaseOf (after (firstEpoch ++ [.command .save])).world).rows = [1] :=
  ⟨deliversOnce_of_reaches (reaches_firstEpoch.next (.command .save) trivial rfl), rfl⟩

/-- Another sink fails, row 2 is written, and the checkpoint is tried again. -/
def retriedEpoch : List (SinkEvent (postgresConnector appendTable)) :=
  firstEpoch ++ [.command .abandon, .command (.write [2] accepting),
    .command (.preCommit accepting), .command .save]

/-- The second `pre_commit` drops the row that was written after the first one, and the manifest
covers it. -/
theorem not_deliversOnce :
    (sinkRuns (postgresConnector appendTable)).Reaches (fun _ _ => True) (after retriedEpoch) ∧
      ¬ DeliversOnce (after retriedEpoch) := by
  refine ⟨?_, ?_⟩
  · have ran : (sinkRuns _).run (.initial _) retriedEpoch = some (after retriedEpoch) := rfl
    exact .of_run (fun _ _ => trivial) (.initial rfl) ran
  · intro once
    exact absurd (once.recovered 2 (by decide) rfl) (by decide)

end LaminarDB.Connectors.Sinks.Postgres
