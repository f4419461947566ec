import LaminarDB.Connectors.DeltaSink

/-!
# Runs of the Delta Lake sink

A row that the sink accepts is held in its batches, in the buffer or staged, until it is written
or rolled back. The two places meet in `pre_commit`, which keeps only one of them, and the
batches end with the process.
-/

namespace LaminarDB.Connectors.DeltaLake

open Library List
open Connectors.Sinks DeltaLakeSink SinkTable

variable {Row : Type} {config : DeltaLakeSinkConfig}

abbrev DeltaSinkRun (Row : Type) (config : DeltaLakeSinkConfig) :=
  SinkRun (deltaConnector Row config)

variable (world : World (deltaConnector Row config))

def tableOf : SinkTable Row :=
  world.target

def sinkOf (process : Process (deltaConnector Row config)) : DeltaLakeSink Row :=
  process.sink

/-- After a successful `commit_epoch`, every row accepted and not rolled back is in the table
once. Rolled-back rows are not in the table, and the rows of a skipped epoch are. -/
structure CommitsOnce [DecidableEq Row] (run : DeltaSinkRun Row config) : Prop where
  committed : ∀ process epoch, run.process = some process →
    run.world.last = some (.commitEpoch epoch, true) →
    ∀ row ∈ process.accepted, row ∉ run.world.discarded → (tableOf run.world).rows.count row = 1
  rolledBack : ∀ row ∈ run.world.discarded, row ∉ (tableOf run.world).rows
  skipped : ∀ process, run.process = some process → (sinkOf process).epochSkipped = true →
    ∀ row ∈ process.pending, row ∈ (tableOf run.world).rows

section

variable (process : Process (deltaConnector Row config))

def NoneWaits : Prop :=
  ∀ row ∈ process.pending, row ∉ world.covered

def MayStage : Prop :=
  (sinkOf process).buffer = [] ∨
    (sinkOf process).stagedBatches = [] ∧ (sinkOf process).lastCommittedEpoch < process.epoch

end

/-- The steps that lose no row: `pre_commit` finds an empty buffer unless nothing is staged and
the epoch is not yet committed, a process ends only if no row waits that the manifest covers,
and it is closed only with an empty buffer. -/
def KeepsRows (run : DeltaSinkRun Row config) : SinkEvent (deltaConnector Row config) → Prop
  | .command (.preCommit _) => ∀ process, run.process = some process → MayStage process
  | .command (.close _ _) =>
    ∀ process, run.process = some process →
      (sinkOf process).buffer = [] ∧ NoneWaits run.world process
  | .crash => ∀ process, run.process = some process → NoneWaits run.world process
  | _ => True

variable {sink : DeltaLakeSink Row} {table : SinkTable Row} {epoch savedEpoch : Nat}
  {answers : DeltaAnswers}

namespace SinkTable

theorem lastCommittedEpoch_le {bound : Nat}
    (bounded : ∀ transaction ∈ table.transactions, transaction.1 ≤ bound) :
    table.lastCommittedEpoch ≤ bound := by
  unfold lastCommittedEpoch
  split
  · exact Nat.zero_le _
  · next transaction isLast => exact bounded transaction (mem_of_getLast? isLast)

@[simp]
theorem rows_write (rows : List Row) : (table.write epoch rows).rows = table.rows ++ rows := by
  simp [SinkTable.rows, write]

end SinkTable

namespace DeltaLakeSink

theorem attemptWrites_cases (table : SinkTable Row) (attemptsLeft : Nat)
    (attempts : List Attempt) (sink : DeltaLakeSink Row) :
    (attemptWrites table attemptsLeft attempts sink =
        ⟨table.write sink.currentEpoch sink.stagedBatches.flatten,
          { sink with hasTable := true, stagedBatches := [] }, true⟩) ∨
      ∃ hasTable, attemptWrites table attemptsLeft attempts sink =
        ⟨table, { sink with hasTable }, false⟩ := by
  induction attemptsLeft generalizing attempts sink with
  | zero => exact .inr ⟨sink.hasTable, rfl⟩
  | succ attemptsLeft ih =>
    cases attempts with
    | nil => exact .inr ⟨false, rfl⟩
    | cons attempt attempts =>
      unfold attemptWrites
      split
      · exact .inr ⟨sink.hasTable, rfl⟩
      · cases attempt.outcome with
        | written => exact .inl rfl
        | conflict => exact ih attempts { sink with hasTable := false }
        | failed => exact .inr ⟨false, rfl⟩
        | notCombined => exact .inr ⟨true, rfl⟩

theorem commitEpoch_cases (later : sink.lastCommittedEpoch < epoch) :
    (sink.stagedBatches = [] ∧ sink.commitEpoch config table epoch answers =
        ⟨table, { sink with lastCommittedEpoch := epoch }, true⟩) ∨
      (sink.stagedBatches ≠ [] ∧ sink.commitEpoch config table epoch answers =
        ⟨table.write sink.currentEpoch sink.stagedBatches.flatten,
          { sink with hasTable := true, stagedBatches := [], lastCommittedEpoch := epoch }, true⟩) ∨
      ∃ hasTable, sink.commitEpoch config table epoch answers =
        ⟨table, { sink with hasTable }, false⟩ := by
  unfold commitEpoch
  rw [if_neg (Nat.not_le.mpr later)]
  by_cases staged : sink.stagedBatches = []
  · left
    simp [flushStagedToDelta, staged]
  · right
    rcases attemptWrites_cases table (config.maxCommitRetries + 1) answers.attempts sink with
      written | ⟨hasTable, failed⟩
    · left
      simp [flushStagedToDelta, staged, written]
    · exact .inr ⟨hasTable, by simp [flushStagedToDelta, staged, failed]⟩

/-- An initialised sink may have learned the last epoch of the table; its batches are the
same. -/
inductive Initialises (table : SinkTable Row) (sink : DeltaLakeSink Row) :
    DeltaLakeSink Row × Bool → Prop where
  | already (deferred : sink.needsDeferredInit = false) : Initialises table sink (sink, true)
  | completed {last} (deferred : sink.needsDeferredInit = true)
      (within : last ≤ table.lastCommittedEpoch) :
      Initialises table sink
        ({ sink with hasTable := true, lastCommittedEpoch := last, needsDeferredInit := false,
                     state := .running }, true)
  | failed (deferred : sink.needsDeferredInit = true) :
      Initialises table sink ({ sink with state := .failed }, false)

theorem completeInit_initialises (sink : DeltaLakeSink Row) (table : SinkTable Row)
    (answers : DeltaAnswers) : Initialises table sink (sink.completeInit table answers) := by
  unfold completeInit
  by_cases deferred : sink.needsDeferredInit = true
  · rw [if_pos deferred]
    split
    · rename_i opened isOpened
      obtain ⟨_, isOpen⟩ := Option.ite_none_right_eq_some.mp isOpened
      rw [← Option.some.inj isOpen]
      refine .completed deferred ?_
      split
      · exact Nat.le_refl _
      · exact Nat.zero_le _
    · exact .failed deferred
  · rw [if_neg deferred]
    exact .already (Bool.not_eq_true _ ▸ deferred)

end DeltaLakeSink

structure Intact (table : SinkTable Row) (savedEpoch : Nat) (covered discarded : List Row) :
    Prop where
  once : table.rows.Nodup
  within : ∀ row ∈ table.rows, row ∈ covered
  rolledBack : ∀ row ∈ discarded, row ∉ table.rows
  epochs : ∀ transaction ∈ table.transactions, transaction.1 ≤ savedEpoch

/-- A sink that is not initialised holds nothing, and only such a sink has failed. -/
structure Usable (sink : DeltaLakeSink Row) : Prop where
  unskipped : sink.epochSkipped = false
  unwritten : sink.needsDeferredInit = true → sink.buffer = [] ∧ sink.stagedBatches = []
  failed : sink.state = .failed → sink.needsDeferredInit = true

/-- Every accepted row is in the table, rolled back or held by the sink. -/
structure Sound (table : SinkTable Row) (savedEpoch : Nat) (covered discarded : List Row)
    (sink : DeltaLakeSink Row) (epoch : Nat) (accepted pending : List Row) : Prop
    extends Intact table savedEpoch covered discarded, Usable sink where
  knows : ∀ row ∈ covered, row ∈ accepted
  settled : ∀ row ∈ accepted, row ∈ table.rows ∨ row ∈ discarded ∨ row ∈ pending
  holds : pending = sink.stagedBatches.flatten ++ sink.buffer.flatten
  distinct : pending.Nodup
  waits : ∀ row ∈ pending, row ∈ accepted ∧ row ∉ table.rows ∧ row ∉ discarded
  reached : sink.lastCommittedEpoch ≤ epoch
  stored : savedEpoch ≤ epoch
  done : epoch ≤ sink.lastCommittedEpoch → sink.stagedBatches = []

section Calls

variable {covered discarded accepted pending batch : List Row}
  {after : DeltaLakeSink Row} (answers : DeltaAnswers)

theorem Intact.last_le (intact : Intact table savedEpoch covered discarded) {last : Nat}
    (isLast : last ≤ table.lastCommittedEpoch) : last ≤ savedEpoch :=
  Nat.le_trans isLast (lastCommittedEpoch_le intact.epochs)

variable {ready : DeltaLakeSink Row × Bool}

section

variable (sound : Sound table savedEpoch covered discarded sink epoch accepted pending)

include sound

theorem Sound.flush :
    Sound table savedEpoch covered discarded (sink.flush answers).1 epoch accepted pending := by
  unfold DeltaLakeSink.flush
  split
  · exact sound
  · split
    · rename_i several _
      refine { sound with unwritten := ?_, holds := ?_ }
      · intro deferred
        exact absurd (by simp [(sound.unwritten deferred).1]) several
      · rw [sound.holds]
        simp
    · exact sound

theorem Sound.preCommit
    (mayStage : sink.buffer = [] ∨ sink.stagedBatches = [] ∧ sink.lastCommittedEpoch < epoch) :
    Sound table savedEpoch covered discarded (sink.preCommit epoch) epoch accepted pending ∧
      (sink.preCommit epoch).buffer = [] := by
  unfold DeltaLakeSink.preCommit
  rcases mayStage with empty | ⟨unstaged, later⟩
  · rw [if_pos (by simp [empty])]
    exact ⟨sound, empty⟩
  · cases buffered : sink.buffer with
    | nil =>
      rw [if_pos (by simp)]
      exact ⟨sound, buffered⟩
    | cons first rest =>
      rw [if_neg (by simp [later])]
      refine ⟨{ sound with unwritten := ?_, holds := ?_, done := ?_ }, rfl⟩
      · intro deferred
        have nothing := (sound.unwritten deferred).1
        rw [buffered] at nothing
        exact nomatch nothing
      · rw [sound.holds, unstaged, buffered]
        simp
      · intro committed
        exact absurd later (Nat.not_lt.mpr committed)

theorem Sound.rollback :
    Sound table savedEpoch covered (discarded ++ pending) sink.rollbackEpoch epoch accepted [] := by
  refine
    { sound with
      rolledBack := ?_
      unskipped := rfl
      unwritten := fun _ => ⟨rfl, rfl⟩
      settled := ?_
      holds := rfl
      distinct := nodup_nil
      waits := nofun
      done := fun _ => rfl }
  · refine forall_mem_append.mpr ⟨sound.rolledBack, fun row waiting => ?_⟩
    exact (sound.waits row waiting).2.1
  · intro row mem
    rcases sound.settled row mem with written | before | waiting
    · exact .inl written
    · exact .inr (.inl (mem_append_left _ before))
    · exact .inr (.inl (mem_append_right _ waiting))

theorem Sound.commit (empty : sink.buffer = []) (covers : ∀ row ∈ accepted, row ∈ covered)
    (isEpoch : sink.stagedBatches ≠ [] → sink.currentEpoch ≤ savedEpoch)
    {effect : Effect (SinkTable Row) (DeltaLakeSink Row)}
    (committed : sink.commitEpoch config table epoch answers = effect) :
    Sound effect.target savedEpoch covered discarded effect.sink epoch accepted
        (if effect.ok then [] else pending) ∧
      effect.sink.currentEpoch = sink.currentEpoch ∧ effect.sink.state = sink.state := by
  have staged : pending = sink.stagedBatches.flatten := by
    rw [sound.holds, empty]
    exact append_nil _
  rcases Nat.lt_or_ge sink.lastCommittedEpoch epoch with later | already
  · rcases commitEpoch_cases later with
      ⟨unstaged, succeeded⟩ | ⟨isStaged, written⟩ | ⟨hasTable, failed⟩
    · rw [succeeded] at committed
      subst committed
      have nothing : pending = [] := by
        rw [staged, unstaged]
        rfl
      refine ⟨?_, rfl, rfl⟩
      rw [if_pos rfl, ← nothing]
      exact { sound with reached := Nat.le_refl _, done := fun _ => unstaged }
    · rw [written] at committed
      subst committed
      refine ⟨?_, rfl, rfl⟩
      rw [if_pos rfl, ← staged]
      refine
        { sound with
          once := ?_
          within := ?_
          rolledBack := ?_
          epochs := ?_
          unwritten := fun deferred => ⟨empty, rfl⟩
          settled := ?_
          holds := ?_
          distinct := nodup_nil
          waits := nofun
          reached := Nat.le_refl _
          done := fun _ => rfl }
      · rw [rows_write]
        exact nodup_append'.mpr ⟨sound.once, sound.distinct, fun row written waiting =>
          (sound.waits row waiting).2.1 written⟩
      · rw [rows_write]
        refine forall_mem_append.mpr ⟨sound.within, fun row waiting => ?_⟩
        exact covers row (sound.waits row waiting).1
      · intro row mem inTable
        rw [rows_write] at inTable
        rcases mem_append.mp inTable with before | waiting
        · exact sound.rolledBack row mem before
        · exact (sound.waits row waiting).2.2 mem
      · refine forall_mem_append.mpr ⟨sound.epochs, forall_mem_singleton.mpr ?_⟩
        exact isEpoch isStaged
      · intro row mem
        rw [rows_write]
        rcases sound.settled row mem with written | before | waiting
        · exact .inl (mem_append_left _ written)
        · exact .inr (.inl before)
        · exact .inl (mem_append_right _ waiting)
      · rw [empty]
        rfl
    · rw [failed] at committed
      subst committed
      exact ⟨{ sound with }, rfl, rfl⟩
  · have skipped : sink.commitEpoch config table epoch answers = ⟨table, sink, true⟩ :=
      if_pos already
    rw [skipped] at committed
    subst committed
    have nothing : pending = [] := by
      rw [staged, sound.done already]
      rfl
    refine ⟨?_, rfl, rfl⟩
    rw [if_pos rfl, ← nothing]
    exact sound

theorem Sound.initialise (initialises : Initialises table sink ready) :
    Sound table savedEpoch covered discarded ready.1 epoch accepted pending := by
  cases initialises with
  | already deferred => exact sound
  | completed deferred within =>
    have bounded := sound.last_le within
    refine
      { sound with
        unwritten := nofun
        failed := nofun
        reached := Nat.le_trans bounded sound.stored
        done := fun _ => (sound.unwritten deferred).2 }
  | failed deferred => exact { sound with failed := fun _ => deferred }

end

variable (sound : Sound table savedEpoch covered discarded sink epoch accepted pending)

include sound in
theorem Sound.push [DecidableEq Row]
    (fresh : Fresh accepted batch) (initialised : sink.needsDeferredInit = false) :
    Sound table savedEpoch covered (discarded.filter fun row => row ∉ batch) (sink.push batch)
      epoch (accepted ++ batch) (pending ++ batch) := by
  have remain : ∀ row ∈ accepted, row ∈ discarded →
      row ∈ discarded.filter fun row => row ∉ batch := by
    intro row known mem
    refine mem_filter.mpr ⟨mem, ?_⟩
    simp only [decide_eq_true_eq]
    intro again
    exact fresh.2 row again known
  refine
    { sound with
      rolledBack := fun row mem => sound.rolledBack row (mem_filter.mp mem).1
      unwritten := fun deferred => nomatch initialised.symm.trans deferred
      knows := fun row mem => mem_append_left _ (sound.knows row mem)
      settled := ?_
      holds := ?_
      distinct := ?_
      waits := ?_ }
  · intro row mem
    rcases mem_append.mp mem with before | new
    · rcases sound.settled row before with written | rolled | waiting
      · exact .inl written
      · exact .inr (.inl (remain row before rolled))
      · exact .inr (.inr (mem_append_left _ waiting))
    · exact .inr (.inr (mem_append_right _ new))
  · rw [sound.holds]
    simp [DeltaLakeSink.push]
  · refine nodup_append'.mpr ⟨sound.distinct, fresh.1, ?_⟩
    intro row waiting new
    exact fresh.2 row new (sound.waits row waiting).1
  · intro row mem
    rcases mem_append.mp mem with before | new
    · obtain ⟨known, unwritten, kept⟩ := sound.waits row before
      exact ⟨mem_append_left _ known, unwritten, fun rolled => kept (mem_filter.mp rolled).1⟩
    · refine ⟨mem_append_right _ new, ?_, ?_⟩
      · intro written
        exact fresh.2 row new (sound.knows row (sound.within row written))
      · intro rolled
        have absent := (mem_filter.mp rolled).2
        simp only [decide_eq_true_eq] at absent
        exact absent new

def Begun (sink : DeltaLakeSink Row) (epoch : Nat) : Prop :=
  sink.state = .failed ∨ sink.currentEpoch = epoch

theorem Begun.initialise (begun : Begun sink epoch) (working : sink.state ≠ .failed)
    (initialises : Initialises table sink ready) : Begun ready.1 epoch := by
  have isEpoch := begun.resolve_left working
  cases initialises with
  | already | completed => exact .inr isEpoch
  | failed => exact .inl rfl

variable {ok : Bool}

include sound in
theorem Sound.write [DecidableEq Row] (begun : Begun sink epoch) (fresh : Fresh accepted batch)
    (written : sink.writeBatch table batch answers = (after, ok)) :
    Sound table savedEpoch covered (discardedBy discarded pending (.writeBatch batch) ok) after
        epoch (if ok then accepted ++ batch else accepted)
        (if ok then pending ++ batch else pending) ∧ Begun after epoch := by
  unfold writeBatch at written
  split at written
  · cases written
    exact ⟨sound, begun⟩
  · rename_i working
    split at written
    · rename_i isEmpty
      cases written
      rw [sound.unskipped, Bool.or_false] at isEmpty
      obtain rfl := isEmpty_iff.mp isEmpty
      refine ⟨?_, begun⟩
      simpa [discardedBy] using sound
    · have known : Sound table savedEpoch covered discarded { sink with schemaKnown := true }
          epoch accepted pending := { sound with }
      have begunKnown : Begun { sink with schemaKnown := true } epoch := begun
      have initialises := completeInit_initialises { sink with schemaKnown := true } table answers
      have stillBegun := begunKnown.initialise working initialises
      have ready := known.initialise initialises
      split at written
      · rename_i initialised completed
        rw [completed] at initialises stillBegun ready
        cases written
        refine ⟨ready.push fresh ?_, stillBegun⟩
        cases initialises with
        | already deferred => exact deferred
        | completed => rfl
      · rename_i initialised failed
        rw [failed] at stillBegun ready
        cases written
        exact ⟨ready, stillBegun⟩

theorem Sound.enter (sound : Sound table savedEpoch covered discarded sink epoch accepted [])
    (later : sink.lastCommittedEpoch < epoch) :
    Sound table savedEpoch covered discarded (sink.enterEpoch epoch) epoch accepted [] ∧
      Begun (sink.enterEpoch epoch) epoch := by
  unfold enterEpoch
  rw [if_neg (Nat.not_le.mpr later)]
  obtain ⟨staged, _⟩ := append_eq_nil_iff.mp sound.holds.symm
  refine ⟨{ sound with unskipped := rfl, unwritten := ?_, holds := ?_ }, .inr rfl⟩
  · intro deferred
    exact ⟨rfl, (sound.unwritten deferred).2⟩
  · rw [staged]
    rfl

theorem Sound.begin (sound : Sound table savedEpoch covered discarded sink epoch accepted [])
    (later : sink.lastCommittedEpoch < epoch) (unstored : savedEpoch < epoch)
    (begins : sink.beginEpoch table epoch answers = (after, ok)) :
    Sound table savedEpoch covered discarded after epoch accepted [] ∧ Begun after epoch := by
  unfold DeltaLakeSink.beginEpoch at begins
  by_cases known : sink.schemaKnown = true
  · simp only [if_pos known] at begins
    have initialises := completeInit_initialises sink table answers
    have ready := sound.initialise initialises
    split at begins
    · rename_i initialised completed
      rw [completed] at initialises ready
      cases begins
      refine ready.enter ?_
      cases initialises with
      | already => exact later
      | completed deferred within => exact Nat.lt_of_le_of_lt (sound.last_le within) unstored
    · rename_i initialised failed
      rw [failed] at initialises ready
      cases begins
      refine ⟨ready, ?_⟩
      cases initialises with
      | failed => exact .inl rfl
  · simp only [if_neg known] at begins
    cases begins
    exact sound.enter later

include sound in
theorem Sound.advance :
    Sound table savedEpoch covered discarded sink (epoch + 1) accepted pending :=
  { sound with
    reached := Nat.le_succ_of_le sound.reached
    stored := Nat.le_succ_of_le sound.stored
    done := fun committed => absurd sound.reached (Nat.not_le.mpr committed) }

include sound in
theorem Sound.store : Sound table epoch accepted discarded sink epoch accepted pending :=
  { sound with
    within := fun row mem => sound.knows row (sound.within row mem)
    epochs := fun transaction mem => Nat.le_trans (sound.epochs transaction mem) sound.stored
    knows := fun _ mem => mem
    stored := Nat.le_refl _ }

end Calls

section Runs

def Stands (savedEpoch : Nat) (covered : List Row) (sink : DeltaLakeSink Row) (epoch : Nat)
    (accepted pending : List Row) : Phase → Prop
  | .recovering _ => pending = [] ∧ savedEpoch < epoch ∧ sink.lastCommittedEpoch < epoch
  | .starting => pending = [] ∧ savedEpoch < epoch ∧ sink.lastCommittedEpoch < epoch
  | .running => Begun sink epoch
  | .preCommitted => Begun sink epoch ∧ sink.buffer = []
  | .persisted =>
    Begun sink epoch ∧ sink.buffer = [] ∧ savedEpoch = epoch ∧ ∀ row ∈ accepted, row ∈ covered
  | .decided true => Begun sink epoch ∧ savedEpoch = epoch ∧ pending = []
  | .decided false => Begun sink epoch
  | .stopping => True

variable (world : World (deltaConnector Row config))

structure Busy (process : Process (deltaConnector Row config)) : Prop where
  sound : Sound (tableOf world) world.savedEpoch world.covered world.discarded (sinkOf process)
    process.epoch process.accepted process.pending
  stands : Stands world.savedEpoch world.covered (sinkOf process) process.epoch process.accepted
    process.pending process.phase
  acknowledged : ∀ epoch, world.last = some (.commitEpoch epoch, true) → process.pending = []

structure Idle : Prop where
  intact : Intact (tableOf world) world.savedEpoch world.covered world.discarded
  settled : ∀ row ∈ world.covered, row ∈ (tableOf world).rows ∨ row ∈ world.discarded
  quiet : world.last = none

theorem openSink_fresh (opened : openSink config table answers = some sink) :
    sink.buffer = [] ∧ sink.stagedBatches = [] ∧ sink.epochSkipped = false ∧
      sink.state ≠ .failed ∧ sink.lastCommittedEpoch ≤ table.lastCommittedEpoch := by
  unfold openSink at opened
  split at opened
  · cases opened
    exact ⟨rfl, rfl, rfl, nofun, Nat.zero_le _⟩
  · obtain ⟨ready, initialised, isSink⟩ := Option.map_eq_some_iff.mp opened
    obtain ⟨_, isReady⟩ := Option.ite_none_right_eq_some.mp initialised
    subst isSink
    rw [← Option.some.inj isReady]
    refine ⟨rfl, rfl, rfl, nofun, ?_⟩
    split
    · exact Nat.le_refl _
    · exact Nat.zero_le _

variable {process : Process (deltaConnector Row config)} {world : World (deltaConnector Row config)}

theorem Idle.start (idle : Idle world)
    (opened : openSink config (tableOf world) answers = some sink) :
    Busy world (.start world.saved sink) := by
  obtain ⟨buffer, staged, unskipped, working, last⟩ := openSink_fresh opened
  have earlier := idle.intact.last_le last
  have sound : Sound (tableOf world) world.savedEpoch world.covered world.discarded sink
      (world.savedEpoch + 1) world.covered [] :=
    { idle.intact with
      unskipped
      unwritten := fun _ => ⟨buffer, staged⟩
      failed := fun failed => absurd failed working
      knows := fun _ mem => mem
      settled := fun row mem => (idle.settled row mem).imp_right .inl
      holds := by simp [buffer, staged]
      distinct := nodup_nil
      waits := nofun
      reached := Nat.le_succ_of_le earlier
      stored := Nat.le_succ _
      done := fun _ => staged }
  obtain ⟨phase, isPhase, starts⟩ := Process.start_eq
  rw [starts]
  refine ⟨sound, ?_, fun _ _ => rfl⟩
  rcases isPhase with rfl | rfl <;> exact ⟨rfl, Nat.lt_succ_self _, Nat.lt_succ_of_le earlier⟩

theorem Idle.initially : Idle (SinkRun.initial (deltaConnector Row config)).world where
  intact :=
    { once := nodup_nil
      within := nofun
      rolledBack := nofun
      epochs := nofun }
  settled := nofun
  quiet := rfl

theorem Busy.ends (busy : Busy world process)
    (noneWaits : NoneWaits world process) : Idle { world with last := none } where
  intact := { busy.sound.toIntact with }
  settled := by
    intro row covered
    rcases busy.sound.settled row (busy.sound.knows row covered) with written | rolled | waiting
    · exact .inl written
    · exact .inr rolled
    · exact absurd covered (noneWaits row waiting)
  quiet := rfl

section Commands

variable (answers : DeltaAnswers) {phase : Phase}

theorem Stands.flush {covered accepted pending : List Row}
    (stands : Stands savedEpoch covered sink epoch accepted pending phase) :
    Stands savedEpoch covered (sink.flush answers).1 epoch accepted pending phase := by
  unfold DeltaLakeSink.flush
  split
  · exact stands
  · rename_i several
    split
    · cases phase with
      | recovering | starting | running | stopping => exact stands
      | preCommitted => exact absurd (by simp [stands.2]) several
      | persisted => exact absurd (by simp [stands.2.1]) several
      | decided committed => cases committed <;> exact stands
    · exact stands

variable [DecidableEq Row] (busy : Busy world process)

include busy in
theorem Busy.flush : ((handle world process .flush answers).goto process.phase).Holds Idle Busy :=
  ⟨busy.sound.flush answers, busy.stands.flush answers, nofun⟩

include busy in
theorem Busy.write {batch : List Row}
    (phase : process.phase = .running) (fresh : Fresh process.accepted batch) :
    ((handle world process (.writeBatch batch) answers).goto .running).Holds Idle Busy := by
  have begun := busy.stands
  rw [phase] at begun
  cases written : (sinkOf process).writeBatch (tableOf world) batch answers with
  | mk after ok =>
    obtain ⟨sound, stillBegun⟩ := busy.sound.write answers begun fresh written
    have called : (deltaConnector Row config).call world.target process.sink
        (.writeBatch batch) answers = ⟨world.target, after, ok⟩ :=
      congrArg (fun result => Effect.mk (tableOf world) result.1 result.2) written
    rw [handle_eq rfl called]
    cases ok with
    | true | false => exact ⟨sound, stillBegun, nofun⟩

section

variable
  (sound : Sound (tableOf world) world.savedEpoch world.covered world.discarded (sinkOf process)
    process.epoch process.accepted process.pending)

include sound

theorem rollback_holds (epoch : Nat)
    (stands : Stands world.savedEpoch world.covered (sinkOf process).rollbackEpoch process.epoch
      process.accepted [] phase) :
    ((handle world process (.rollbackEpoch epoch) answers).goto phase).Holds Idle Busy :=
  ⟨sound.rollback, stands, nofun⟩

variable (settled : process.pending = [] ∧ world.savedEpoch < process.epoch ∧
    (sinkOf process).lastCommittedEpoch < process.epoch)

include settled in
theorem beginEpoch_holds (running : phase = .running ∨ phase = .stopping) :
    ((handle world process (.beginEpoch process.epoch) answers).goto phase).Holds Idle Busy := by
  obtain ⟨nothing, unstored, later⟩ := settled
  rw [nothing] at sound
  cases begins : (sinkOf process).beginEpoch (tableOf world) process.epoch answers with
  | mk after ok =>
    obtain ⟨stillSound, begun⟩ := sound.begin answers later unstored begins
    have called : (deltaConnector Row config).call world.target process.sink
        (.beginEpoch process.epoch) answers = ⟨world.target, after, ok⟩ :=
      congrArg (fun result => Effect.mk (tableOf world) result.1 result.2) begins
    rw [handle_eq rfl called]
    rw [← nothing] at stillSound
    have stands : Stands world.savedEpoch world.covered after process.epoch process.accepted
        process.pending phase := by
      rcases running with rfl | rfl
      · exact begun
      · trivial
    cases ok with
    | true | false => exact ⟨stillSound, stands, nofun⟩

include settled in
theorem begin_holds (undo : Option DeltaAnswers) (running : phase = .running ∨ phase = .stopping) :
    ((beginEpoch world process answers undo).goto phase).Holds Idle Busy := by
  have begun := beginEpoch_holds answers sound settled running
  rcases beginEpoch_cases world process with kept | ⟨undoing, _, undone⟩
  · rw [kept]
    exact begun
  · rw [undone]
    show SinkRun.Holds Idle Busy (Handled.goto (handle _ _ (.rollbackEpoch process.epoch)
      undoing) phase)
    refine rollback_holds undoing begun.sound process.epoch ?_
    rcases running with rfl | rfl
    · exact begun.stands
    · trivial

end

include busy in
theorem Busy.preCommit (phase : process.phase = .running) (mayStage : MayStage process) :
    ((handle world process (.preCommit process.epoch) answers).goto
      (if (handle world process (.preCommit process.epoch) answers).ok then .preCommitted
        else .running)).Holds Idle Busy := by
  have begun := busy.stands
  rw [phase] at begun
  cases poisoned : process.refuses (.preCommit process.epoch) with
  | true =>
    rw [handle_refused poisoned]
    exact ⟨busy.sound, begun, nofun⟩
  | false =>
    obtain ⟨sound, empty⟩ := busy.sound.preCommit mayStage
    have stillBegun : Begun ((sinkOf process).preCommit process.epoch) process.epoch := by
      unfold DeltaLakeSink.preCommit
      split <;> exact begun
    rw [handle_eq poisoned rfl]
    exact ⟨sound, ⟨stillBegun, empty⟩, nofun⟩

include busy in
theorem Busy.commit (phase : process.phase = .persisted) :
    ((handle world process (.commitEpoch process.epoch) answers).goto
      (.decided (handle world process (.commitEpoch process.epoch) answers).ok)).Holds Idle
        Busy := by
  have stands := busy.stands
  rw [phase] at stands
  obtain ⟨begun, empty, isSaved, covers⟩ := stands
  cases poisoned : process.refuses (.commitEpoch process.epoch) with
  | true =>
    rw [handle_refused poisoned]
    exact ⟨busy.sound, begun, nofun⟩
  | false =>
    have isEpoch : (sinkOf process).stagedBatches ≠ [] →
        (sinkOf process).currentEpoch ≤ world.savedEpoch := by
      intro staged
      have working : (sinkOf process).state ≠ .failed := by
        intro failed
        exact staged (busy.sound.unwritten (busy.sound.failed failed)).2
      exact Nat.le_of_eq ((begun.resolve_left working).trans isSaved.symm)
    obtain ⟨sound, sameEpoch, sameState⟩ := busy.sound.commit answers empty covers isEpoch rfl
    cases committed : commitEpoch config (tableOf world) (sinkOf process) process.epoch answers with
    | mk table after ok =>
      rw [committed] at sound sameEpoch sameState
      have stillBegun := begun.imp sameState.trans sameEpoch.trans
      rw [handle_eq poisoned committed]
      cases ok with
      | true => exact ⟨sound, ⟨stillBegun, isSaved, rfl⟩, fun _ _ => rfl⟩
      | false => exact ⟨sound, stillBegun, nofun⟩

include busy in
theorem Busy.commanded {command : Command (deltaConnector Row config)}
    {next : DeltaSinkRun Row config} (keeps : KeepsRows ⟨world, some process⟩ (.command command))
    (steps : process.Steps world command next) : next.Holds Idle Busy := by
  have stands := busy.stands
  cases steps with
  | rollbackRecovered phase =>
    rw [phase] at stands
    exact rollback_holds _ busy.sound _ ⟨rfl, stands.2⟩
  | beginInitial phase =>
    rw [phase] at stands
    refine begin_holds _ busy.sound stands _ ?_
    split
    · exact .inl rfl
    · exact .inr rfl
  | write phase fresh => exact busy.write _ phase fresh
  | tick => exact busy.flush _
  | preCommit phase => exact busy.preCommit _ phase (keeps process rfl)
  | abandon phase =>
    rw [phase] at stands
    exact ⟨busy.sound, stands.1, busy.acknowledged⟩
  | save phase =>
    rw [phase] at stands
    exact ⟨busy.sound.store, ⟨stands.1, stands.2, rfl, fun _ mem => mem⟩, busy.acknowledged⟩
  | @saveFails stored answers phase =>
    rw [phase] at stands
    cases stored with
    | false => exact rollback_holds _ busy.sound _ stands.1
    | true => exact rollback_holds _ busy.sound.store _ stands.1
  | commit phase => exact busy.commit _ phase
  | @finish updated answers undo phase =>
    rw [phase] at stands
    obtain ⟨_, isSaved, nothing⟩ := stands
    have settled : process.pending = [] ∧ world.savedEpoch < process.epoch + 1 ∧
        (sinkOf process).lastCommittedEpoch < process.epoch + 1 :=
      ⟨nothing, Nat.lt_succ_of_le busy.sound.stored, Nat.lt_succ_of_le busy.sound.reached⟩
    cases updated with
    | false => exact begin_holds _ busy.sound.advance settled _ (.inl rfl)
    | true =>
      refine begin_holds _ ?_ ?_ _ (.inl rfl)
      · rw [if_pos rfl, World.mark_savedEpoch, World.mark_covered]
        exact busy.sound.advance
      · rw [if_pos rfl, World.mark_savedEpoch]
        exact settled
  | @fallShort status marked phase =>
    have begun : Begun (sinkOf process) process.epoch := by
      rcases phase with persisted | ⟨committed, decided⟩
      · rw [persisted] at stands
        exact stands.1
      · rw [decided] at stands
        cases committed with
        | true => exact stands.1
        | false => exact stands
    cases marked with
    | none => exact ⟨busy.sound, begun, busy.acknowledged⟩
    | some marked =>
      refine ⟨?_, begun, busy.acknowledged⟩
      show Sound (tableOf world) (world.mark marked).savedEpoch (world.mark marked).covered
        world.discarded (sinkOf process) process.epoch process.accepted process.pending
      rw [World.mark_savedEpoch, World.mark_covered]
      exact busy.sound
  | close phase =>
    obtain ⟨empty, noneWaits⟩ := keeps process rfl
    have short : (sinkOf process).buffer.length ≤ 1 := by simp [empty]
    have isEmpty : (sinkOf process).buffer.isEmpty = true := by simp [empty]
    have flushes : ∀ answers, (deltaConnector Row config).call world.target process.sink .flush
        answers = ⟨world.target, process.sink, true⟩ := by
      intro answers
      have flushed : (sinkOf process).flush answers = (sinkOf process, true) := if_pos short
      exact congrArg (fun result => Effect.mk (tableOf world) result.1 result.2) flushed
    have closes : ∀ answers, (deltaConnector Row config).call world.target process.sink .close
        answers = ⟨world.target, process.sink, true⟩ := fun answers => if_pos isEmpty
    rw [close_unchanged (flushes _) (closes _)]
    exact busy.ends noneWaits

end Commands

/-- In runs whose steps lose no row, every accepted row is committed once. -/
theorem commitsOnce_of_reaches [DecidableEq Row] {run : DeltaSinkRun Row config}
    (reached : (sinkRuns (deltaConnector Row config)).Reaches KeepsRows run) :
    CommitsOnce run := by
  have holds : run.Holds Idle Busy := by
    refine holds_of_reaches Idle.initially ?_ ?_ ?_ reached
    · intro world answers sink idle _ opened
      exact idle.start opened
    · intro world process command next busy keeps steps
      exact busy.commanded keeps steps
    · intro world process busy keeps
      exact busy.ends (keeps process rfl)
  obtain ⟨world, process⟩ := run
  cases process with
  | none =>
    exact
      { committed := nofun
        rolledBack := holds.intact.rolledBack
        skipped := nofun }
  | some process =>
    have sound := holds.sound
    refine ⟨?_, sound.rolledBack, ?_⟩
    · intro same epoch isProcess isLast row accepted kept
      cases isProcess
      have nothing := holds.acknowledged epoch isLast
      rcases sound.settled row accepted with written | rolled | waiting
      · exact count_eq_one_of_mem sound.once written
      · exact absurd rolled kept
      · rw [nothing] at waiting
        exact nomatch waiting
    · intro same isProcess isSkipped
      cases isProcess
      exact nomatch sound.unskipped.symm.trans isSkipped

def sampleConfig : DeltaLakeSinkConfig := ⟨false, 0⟩

def accepting : DeltaAnswers := ⟨true, true, [⟨true, .written⟩], true⟩

def rejecting : DeltaAnswers := ⟨true, true, [⟨true, .failed⟩], true⟩

def after (events : List (SinkEvent (deltaConnector Nat sampleConfig))) :
    DeltaSinkRun Nat sampleConfig :=
  ((sinkRuns _).run (.initial _) events).getD (.initial _)

def firstEpoch : List (SinkEvent (deltaConnector Nat sampleConfig)) :=
  [.start accepting, .command (.beginInitial accepting none), .command (.write [1] accepting),
    .command (.preCommit accepting), .command .save]

theorem reaches_firstEpoch :
    (sinkRuns (deltaConnector Nat sampleConfig)).Reaches KeepsRows (after firstEpoch) := by
  have initially : (sinkRuns _).Reaches KeepsRows (after []) := .initial rfl
  have started := initially.next (.start accepting) trivial rfl
  have begun := started.next (.command (.beginInitial accepting none)) trivial rfl
  have written := begun.next (.command (.write [1] accepting)) trivial rfl
  have mayStage : KeepsRows (after (firstEpoch.take 3)) (.command (.preCommit accepting)) := by
    intro process isProcess
    cases isProcess
    exact .inr ⟨rfl, Nat.one_pos⟩
  have prepared := written.next (.command (.preCommit accepting)) mayStage rfl
  exact prepared.next (.command .save) trivial rfl

theorem commitsOnce_of_reaches_written :
    CommitsOnce (after (firstEpoch ++ [.command (.commit accepting)])) ∧
      (tableOf (after (firstEpoch ++ [.command (.commit accepting)])).world).rows = [1] :=
  ⟨commitsOnce_of_reaches (reaches_firstEpoch.next (.command (.commit accepting)) trivial rfl), rfl⟩

def retriedEpoch : List (SinkEvent (deltaConnector Nat sampleConfig)) :=
  firstEpoch ++ [.command (.commit rejecting), .command (.fallShort none),
    .command (.write [2] accepting), .command (.preCommit accepting), .command .save,
    .command (.commit accepting)]

/-- The batches of a failed commit are replaced by those written after it. -/
theorem not_commitsOnce :
    (sinkRuns (deltaConnector Nat sampleConfig)).Reaches (fun _ _ => True) (after retriedEpoch) ∧
      ¬ CommitsOnce (after retriedEpoch) := by
  refine ⟨?_, ?_⟩
  · have ran : (sinkRuns _).run (.initial _) retriedEpoch = some (after retriedEpoch) := rfl
    exact .of_run (fun _ _ => trivial) (.initial rfl) ran
  · intro once
    exact absurd (once.committed _ 1 rfl rfl 1 (by decide) (by decide)) (by decide)

end Runs

end LaminarDB.Connectors.DeltaLake
