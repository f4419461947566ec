import LaminarDB.Connectors.FileSinkRuns
import LaminarDB.Connectors.FileSinkSegments

/-!
# The promise of two-phase commit

`Published` is the part of the promise that is about the final files: it survives the
process, and only a commit can change it. `Staged` relates the temporary files and
buffers of the running process to the ledger; it says when the next segment has a new
name, which is what a write needs, and that nothing is buffered in a pre-committed
epoch, which is what a commit needs.
-/

namespace LaminarDB.Connectors.Files

open Library List Ledger FileName FileSink

variable {Row : Type} {config : FileSinkConfig Row} {sink : FileSink Row}
  {directory : Directory FileName Row} {ledger : Ledger Row} {names : List FileName}

variable (directory ledger) in
structure Published : Prop where
  rows : ∀ epoch, directory.held (isFinal epoch) = ledger.committedRows epoch
  names : ∀ name : FileName, (directory.find? name).isSome = true →
    name.temporary = false → name.epoch ∈ ledger.epochs

variable (config sink directory ledger) in
structure Staged : Prop where
  epoch : ledger.begun = true → sink.currentEpoch = ledger.epoch
  rows : ∃ rows, Segments sink directory rows ∧ rows ++ sink.epochBatches.flatten = ledger.pending
  fresh : ledger.prepared = false → sink.writer = none →
    ∀ name ∈ sink.activeTmpFiles, name.segment < sink.currentSegment
  bulk : config.isBulk = true → sink.writer = none ∧
    (ledger.prepared = false → sink.activeTmpFiles = [])
  rowwise : config.isBulk = false → sink.epochBatches = []
  batches : ∀ batch ∈ sink.epochBatches, batch ≠ []
  prepared : ledger.prepared = true → sink.writer = none ∧ sink.epochBatches = []
  idle : ledger.begun = false ∨ ledger.epoch ∈ ledger.epochs →
    sink.activeTmpFiles = [] ∧ sink.writer = none ∧ sink.epochBatches = []

structure Invariant (config : FileSinkConfig Row) (state : System Row) : Prop where
  published : Published state.directory state.ledger
  staged : ∀ sink, state.process = some sink → Staged config sink state.directory state.ledger
  stopped : state.process = none → state.ledger.begun = false ∧ state.ledger.pending = []

open Invariant

theorem Published.of_onTemporary {next : Ledger Row} {operations : List (Operation Row)}
    (published : Published directory ledger) (sameCommits : next.commits = ledger.commits)
    (onTemporary : OnTemporary operations) : Published (directory.applyAll operations) next := by
  constructor
  · intro epoch
    rw [Directory.held_applyAll_of_unselected, published.rows epoch, committedRows,
      committedRows, sameCommits]
    intro operation isMember name isTouched
    simp [isFinal, onTemporary operation isMember name isTouched]
  · intro name isFile isFinal
    rw [epochs, sameCommits]
    apply published.names name _ isFinal
    rwa [Directory.find?_applyAll_of_untouched] at isFile
    intro operation isMember isTouched
    rw [onTemporary operation isMember name isTouched] at isFinal
    cases isFinal

theorem cleanupTmpFiles_onTemporary (directory : Directory FileName Row) :
    OnTemporary (cleanupTmpFiles directory) := by
  intro operation isMember name isTouched
  obtain ⟨file, isFile, rfl⟩ := mem_map.mp isMember
  rw [mem_singleton.mp isTouched]
  exact (mem_filter.mp isFile).2

theorem Staged.of_empty (begun : ledger.begun = true → sink.currentEpoch = ledger.epoch)
    (noFiles : sink.activeTmpFiles = []) (noWriter : sink.writer = none)
    (noBatches : sink.epochBatches = []) (noRows : ledger.pending = []) :
    Staged config sink directory ledger := by
  refine ⟨begun, ⟨[], ⟨?_, ?_, ?_, ?_⟩, ?_⟩, ?_, ?_, ?_, ?_, ?_, ?_⟩
  · simp [noFiles]
  · simp [noFiles]
  · simp [noWriter]
  · simp [noFiles, buffered, noWriter]
  · simp [noBatches, noRows]
  · simp [noFiles]
  · exact fun _ => ⟨noWriter, fun _ => noFiles⟩
  · exact fun _ => noBatches
  · simp [noBatches]
  · exact fun _ => ⟨noWriter, noBatches⟩
  · exact fun _ => ⟨noFiles, noWriter, noBatches⟩

section

variable (staged : Staged config sink directory ledger)

include staged

theorem Staged.pending_of_idle
    (isIdle : ledger.begun = false ∨ ledger.epoch ∈ ledger.epochs) : ledger.pending = [] := by
  obtain ⟨noFiles, noWriter, noBatches⟩ := staged.idle isIdle
  obtain ⟨rows, segments, isPending⟩ := staged.rows
  have noRows : rows = [] := by
    simpa [noFiles, buffered, noWriter, eq_comm] using segments.held
  rw [← isPending, noRows, noBatches]
  rfl

theorem Staged.isNew (unprepared : ledger.prepared = false) (noWriter : sink.writer = none) :
    sink.segmentPath ∉ sink.activeTmpFiles := fun isActive =>
  Nat.lt_irrefl _ (staged.fresh unprepared noWriter _ isActive)

theorem Staged.writeBatch (begun : ledger.begun = true) (batch : List Row) (spilled : Nat)
    (admitted : batch = [] ∨ ledger.Writable) :
    Staged config (sink.writeBatch config batch spilled).sink
      (directory.applyAll (sink.writeBatch config batch spilled).operations)
      (if (sink.writeBatch config batch spilled).result.isOk
        then ledger.apply (.writeBatch batch spilled) else ledger) := by
  unfold FileSink.writeBatch
  split
  next isEmpty =>
    subst isEmpty
    have unchanged : ledger.apply (.writeBatch [] spilled) = ledger := by
      simp [apply]
    rw [unchanged]
    exact staged
  next hasRows =>
    obtain ⟨unprepared, uncommitted⟩ := admitted.resolve_left hasRows
    have notIdle : ¬(ledger.begun = false ∨ ledger.epoch ∈ ledger.epochs) := by
      simp [begun, uncommitted]
    obtain ⟨rows, segments, isPending⟩ := staged.rows
    split
    next isBulk =>
      split
      next => exact staged
      next =>
        refine ⟨staged.epoch, ⟨rows, ?_, ?_⟩, staged.fresh, staged.bulk, ?_, ?_, ?_, ?_⟩
        · exact { segments with }
        · simp [Except.isOk, Except.toBool, apply, ← isPending]
        · intro notBulk
          cases isBulk.symm.trans notBulk
        · exact forall_mem_append.mpr ⟨staged.batches, forall_mem_singleton.mpr hasRows⟩
        · intro isPrepared
          exact nomatch unprepared.symm.trans isPrepared
        · intro isIdle
          exact (notIdle isIdle).elim
    next notBulk =>
      have isRowwise : config.isBulk = false := by simpa using notBulk
      split
      next => exact staged
      next records isEncoded =>
        have noBatches := staged.rowwise isRowwise
        obtain ⟨written, isFresh, sameEpoch, sameBatches⟩ :=
          segments.writeRecords config records spilled (staged.isNew unprepared)
        rw [config.encoder.lossless isEncoded] at written
        have noneAfter := sameBatches.trans noBatches
        refine ⟨?_, ⟨rows ++ batch, written, ?_⟩, fun _ => isFresh, ?_, ?_, ?_, ?_, ?_⟩
        · intro isBegun
          exact sameEpoch.trans (staged.epoch isBegun)
        · rw [noneAfter]
          rw [noBatches] at isPending
          simp [Except.isOk, Except.toBool, apply, ← isPending]
        · intro isBulk
          exact (notBulk isBulk).elim
        · exact fun _ => noneAfter
        · simp [noneAfter]
        · intro isPrepared
          exact nomatch unprepared.symm.trans isPrepared
        · intro isIdle
          exact (notIdle isIdle).elim

theorem Staged.writeBulk {written : FileSink Row × List (Operation Row)}
    (isWritten : sink.writeBulk config = .ok written) :
    Segments written.1 (directory.applyAll written.2) ledger.pending ∧
      OnTemporary written.2 ∧ written.1.epochBatches = [] ∧
      written.1.currentEpoch = sink.currentEpoch := by
  obtain ⟨rows, segments, isPending⟩ := staged.rows
  unfold FileSink.writeBulk at isWritten
  split at isWritten
  next isBulk =>
    have unprepared : ledger.prepared = false := by
      cases isPrepared : ledger.prepared with
      | false => rfl
      | true => exact (isBulk.2 (staged.prepared isPrepared).2).elim
    have noFiles := (staged.bulk isBulk.1).2 unprepared
    have noWriter := (staged.bulk isBulk.1).1
    obtain ⟨batch, isBatch⟩ := exists_mem_of_ne_nil _ isBulk.2
    have hasRows : sink.epochBatches.flatten ≠ [] := fun noRows =>
      staged.batches batch isBatch (flatten_eq_nil_iff.mp noRows batch isBatch)
    split at isWritten
    next => cases isWritten
    next blobs isEncoded =>
      obtain ⟨blob, isSingle⟩ := config.encoder.single isBulk.1 isEncoded hasRows
      have allRows : blob.rows = sink.epochBatches.flatten := by
        have lossless := config.encoder.lossless isEncoded
        rwa [isSingle, flatMap_singleton] at lossless
      rw [isSingle] at isWritten
      cases isWritten
      have opened := segments.openSegment blob.rows noWriter (by simp [noFiles])
      rw [allRows, isPending] at opened
      refine ⟨?_, ?_, rfl, rfl⟩
      · rw [allRows]
        exact { opened with }
      · intro operation isMember name isTouched
        rw [mem_singleton.mp isMember] at isTouched
        rw [mem_singleton.mp isTouched]
        rfl
  next notBulk =>
    cases isWritten
    have noBatches : sink.epochBatches = [] := by
      cases isBulk : config.isBulk with
      | false => exact staged.rowwise isBulk
      | true => exact not_not.mp fun hasBatches => notBulk ⟨isBulk, hasBatches⟩
    rw [noBatches, flatten_nil, append_nil] at isPending
    rw [← isPending]
    exact ⟨segments, .nil, noBatches, rfl⟩

end

theorem closeWriter_unchanged :
    sink.closeWriter.1.activeTmpFiles = sink.activeTmpFiles ∧
      sink.closeWriter.1.currentEpoch = sink.currentEpoch ∧
      sink.closeWriter.1.epochBatches = sink.epochBatches := by
  unfold closeWriter
  split
  next => exact ⟨rfl, rfl, rfl⟩
  next => exact ⟨rfl, rfl, rfl⟩

theorem syncAll_touches :
    ∀ operation ∈ (names.map .sync : List (Operation Row)), operation.touches = [] := by
  intro operation isMember
  obtain ⟨name, _, rfl⟩ := mem_map.mp isMember
  rfl

theorem applyAll_sync : directory.applyAll (names.map .sync) = directory := by
  induction names with
  | nil => rfl
  | cons name names ih => exact ih

variable (staged : Staged config sink directory ledger) {epoch : Nat}

include staged in
theorem Staged.preCommit (epoch : Nat) :
    OnTemporary (sink.preCommit config).operations ∧
      Staged config (sink.preCommit config).sink
        (directory.applyAll (sink.preCommit config).operations)
        (if (sink.preCommit config).result.isOk
          then ledger.apply (.preCommit epoch) else ledger) := by
  unfold FileSink.preCommit
  split
  next => exact ⟨.nil, staged⟩
  next written isWritten =>
    obtain ⟨segments, onTemporary, noBatches, sameEpoch⟩ := staged.writeBulk isWritten
    obtain ⟨sameFiles, closedEpoch, closedBatches⟩ := closeWriter_unchanged
    have noWriter := Segments.closeWriter_writer written.1
    have batchesAfter := closedBatches.trans noBatches
    have isPrepared : (ledger.apply (.preCommit epoch)).prepared = true := rfl
    refine ⟨?_, ?_, ⟨ledger.pending, ?_, ?_⟩, ?_, ?_, ?_, ?_, ?_, ?_⟩
    · apply (onTemporary.append segments.writesTemporary.closeWriter).append
      intro operation isMember name isTouched
      rw [syncAll_touches operation isMember] at isTouched
      cases isTouched
    · exact fun isBegun => (closedEpoch.trans sameEpoch).trans (staged.epoch isBegun)
    · simp only [Directory.applyAll_append, applyAll_sync]
      exact segments.closeWriter
    · rw [batchesAfter, flatten_nil, append_nil]
      rfl
    · exact fun unprepared => nomatch unprepared.symm.trans isPrepared
    · exact fun _ => ⟨noWriter, fun unprepared => nomatch unprepared.symm.trans isPrepared⟩
    · exact fun _ => batchesAfter
    · simp [batchesAfter]
    · exact fun _ => ⟨noWriter, batchesAfter⟩
    · intro isIdle
      have wasIdle := isIdle
      refine ⟨?_, noWriter, batchesAfter⟩
      have noBulk : ¬(config.isBulk = true ∧ sink.epochBatches ≠ []) := fun isBulk =>
        isBulk.2 (staged.idle wasIdle).2.2
      rw [FileSink.writeBulk, if_neg noBulk] at isWritten
      cases isWritten
      exact sameFiles.trans (staged.idle wasIdle).1

theorem FileName.final_injective {first second : FileName} (ofFirst : first.temporary = true)
    (ofSecond : second.temporary = true) (same : first.final = second.final) : first = second := by
  obtain ⟨epoch, segment, temporary⟩ := first
  obtain ⟨otherEpoch, otherSegment, otherTemporary⟩ := second
  cases ofFirst
  cases ofSecond
  cases same
  rfl

theorem committedRows_commit (other : Nat) :
    (ledger.apply (.commitEpoch epoch)).committedRows other =
      ledger.committedRows other ++ (if epoch = other then ledger.pending else []) := by
  by_cases same : epoch = other <;> simp [committedRows, apply, filter_append, same]

include staged in
theorem Staged.final_missing (published : Published directory ledger) :
    ∀ name ∈ sink.activeTmpFiles, name.temporary = true ∧ name.epoch = ledger.epoch ∧
      directory.find? name.final = none := by
  intro name isActive
  obtain ⟨rows, segments, _⟩ := staged.rows
  obtain ⟨isTemporary, sameEpoch, _⟩ := segments.names name isActive
  have notIdle : ¬(ledger.begun = false ∨ ledger.epoch ∈ ledger.epochs) := by
    intro isIdle
    rw [(staged.idle isIdle).1] at isActive
    cases isActive
  have begun : ledger.begun = true := by
    simpa using fun unbegun => notIdle (.inl unbegun)
  have isCurrent := sameEpoch.trans (staged.epoch begun)
  refine ⟨isTemporary, isCurrent, ?_⟩
  cases isFile : directory.find? name.final with
  | none => rfl
  | some items =>
    have isCommitted := published.names name.final (by rw [isFile]; rfl) rfl
    rw [← isCurrent] at notIdle
    exact (notIdle (.inr isCommitted)).elim

section Commit

variable (isRolling : config.mode = .rolling)

include isRolling

theorem commitEpoch_eq : sink.commitEpoch config =
    ⟨{ sink with activeTmpFiles := [] },
      sink.activeTmpFiles.map fun name => .rename name name.final, .ok ()⟩ := by
  rw [commitEpoch, isRolling]

variable (staged : Staged config sink directory ledger) (published : Published directory ledger)
  (isPrepared : ledger.prepared = true)

include staged published isPrepared

theorem Staged.commit_held :
    (directory.applyAll (sink.commitEpoch config).operations).held
        (isFinal ledger.epoch) = ledger.committedRows ledger.epoch ++ ledger.pending := by
  have missing := staged.final_missing published
  obtain ⟨rows, segments, isPending⟩ := staged.rows
  obtain ⟨noWriter, noBatches⟩ := staged.prepared isPrepared
  have isHeld := segments.held
  simp only [buffered, noWriter, append_nil] at isHeld
  rw [noBatches, flatten_nil, append_nil] at isPending
  rw [commitEpoch_eq isRolling, Directory.held_renameAll segments.distinct, published.rows,
    isHeld, isPending]
  · intro first isFirst second isSecond
    exact final_injective (missing first isFirst).1 (missing second isSecond).1
  · intro name isActive
    simp [isFinal, (missing name isActive).1]
  · intro name isActive
    simp [isFinal, final, (missing name isActive).2.1]
  · exact fun name isActive => (missing name isActive).2.2

theorem Staged.commit_published :
    Published (directory.applyAll (sink.commitEpoch config).operations)
      (ledger.apply (.commitEpoch ledger.epoch)) := by
  have missing := staged.final_missing published
  have touched : ∀ operation ∈ (sink.commitEpoch config).operations,
      ∀ name ∈ operation.touches, name.epoch = ledger.epoch := by
    rw [commitEpoch_eq isRolling]
    intro operation isMember name isTouched
    obtain ⟨active, isActive, rfl⟩ := mem_map.mp isMember
    have isCurrent := (missing active isActive).2.1
    rcases mem_pair.mp isTouched with rfl | rfl <;> exact isCurrent
  constructor
  · intro epoch
    rw [committedRows_commit]
    by_cases isCurrent : ledger.epoch = epoch
    · subst isCurrent
      rw [if_pos rfl]
      exact staged.commit_held isRolling published isPrepared
    · rw [if_neg isCurrent, append_nil, Directory.held_applyAll_of_unselected]
      · exact published.rows epoch
      · intro operation isMember name isTouched
        simp [isFinal, touched operation isMember name isTouched, isCurrent]
  · intro name isFile isFinal
    rw [apply, epochs, map_append, mem_append]
    by_cases isCurrent : name.epoch = ledger.epoch
    · exact .inr (by simp [isCurrent])
    · apply Or.inl
      apply published.names name _ isFinal
      rwa [Directory.find?_applyAll_of_untouched] at isFile
      intro operation isMember isTouched
      exact isCurrent (touched operation isMember name isTouched)

end Commit

include staged in
theorem Staged.rollbackEpoch (allowed : ledger.Allows (.rollbackEpoch epoch)) :
    Staged config sink.rollbackEpoch.sink
      (directory.applyAll sink.rollbackEpoch.operations) (ledger.rollback epoch) := by
  apply Staged.of_empty
  · intro begun
    have sameEpoch : (ledger.rollback epoch).epoch = ledger.epoch := by
      unfold rollback
      split <;> rfl
    have sameBegun : (ledger.rollback epoch).begun = ledger.begun := by
      unfold rollback
      split <;> rfl
    rw [sameEpoch]
    exact staged.epoch (sameBegun ▸ begun)
  · rfl
  · rfl
  · rfl
  · unfold rollback
    split
    next => rfl
    next different => exact staged.pending_of_idle (.inl (allowed.resolve_left different))

include staged in
theorem effect_onTemporary {call : Call Row} (notCommit : ∀ epoch, call ≠ .commitEpoch epoch) :
    OnTemporary (call.effect config sink).2.1 := by
  obtain ⟨rows, segments, _⟩ := staged.rows
  have writes := segments.writesTemporary
  have removes : OnTemporary (sink.activeTmpFiles.map .remove : List (Operation Row)) :=
    .removeAll fun name isActive => (segments.names name isActive).1
  cases call with
  | beginEpoch epoch => exact writes.closeWriter
  | writeBatch batch spilled => exact writes.writeBatch config batch spilled
  | preCommit epoch => exact (staged.preCommit epoch).1
  | commitEpoch epoch => exact (notCommit epoch rfl).elim
  | rollbackEpoch | close => exact writes.closeWriter.append removes

section

variable (ledger : Ledger Row)

theorem rollback_commits : (ledger.rollback epoch).commits = ledger.commits := by
  unfold rollback
  split <;> rfl

variable (call : Call Row)

theorem crash_commits : (ledger.crash call).commits = ledger.commits := by
  cases call with
  | rollbackEpoch epoch => exact rollback_commits ledger
  | _ => rfl

theorem apply_commits (notCommit : ∀ epoch, call ≠ .commitEpoch epoch) :
    (ledger.apply call).commits = ledger.commits := by
  cases call with
  | commitEpoch epoch => exact (notCommit epoch rfl).elim
  | rollbackEpoch epoch => exact rollback_commits ledger
  | _ => rfl

theorem crash_stopped (unprepared : (ledger.crash call).prepared = false) :
    (ledger.crash call).begun = false ∧ (ledger.crash call).pending = [] := by
  have ofRestart : ∀ ended : Ledger Row, ended.prepared = false →
      ended.restart.begun = false ∧ ended.restart.pending = [] := by
    intro ended isUnprepared
    simp [restart, isUnprepared]
  cases call with
  | rollbackEpoch epoch => exact ofRestart (ledger.rollback epoch) unprepared
  | _ => exact ofRestart ledger unprepared

end

variable {state next : System Row}

theorem Invariant.running {process : FileSink Row} (published : Published directory ledger)
    (staged : Staged config process directory ledger) :
    Invariant config ⟨directory, some process, ledger⟩ := by
  refine ⟨published, ?_, ?_⟩
  · intro sink isProcess
    cases isProcess
    exact staged
  · intro isStopped
    cases isStopped

theorem Invariant.ended (published : Published directory ledger)
    (stopped : ledger.begun = false ∧ ledger.pending = []) :
    Invariant config ⟨directory, none, ledger⟩ := by
  refine ⟨published, ?_, fun _ => stopped⟩
  intro sink isProcess
  cases isProcess

variable (invariant : Invariant config state)

section

variable (isProcess : state.process = some sink)

include invariant isProcess

theorem Invariant.call (isRolling : config.mode = .rolling) {call : Call Row}
    (allowed : state.ledger.Allows call) (safe : Safe state (.call call)) :
    Invariant config
      { directory := state.directory.applyAll (call.effect config sink).2.1
        process := (call.effect config sink).1
        ledger := if (call.effect config sink).2.2 then state.ledger.apply call
          else state.ledger } := by
  have staged := invariant.staged sink isProcess
  have published (notCommit : ∀ epoch, call ≠ .commitEpoch epoch) :
      Published (state.directory.applyAll (call.effect config sink).2.1)
        (if (call.effect config sink).2.2 then state.ledger.apply call else state.ledger) := by
    apply invariant.published.of_onTemporary _ (effect_onTemporary staged notCommit)
    split
    · exact apply_commits state.ledger call notCommit
    · rfl
  cases call with
  | beginEpoch epoch =>
    apply running (published (by simp))
    exact .of_empty (fun _ => rfl) rfl rfl rfl rfl
  | writeBatch batch spilled =>
    apply running (published (by simp))
    exact staged.writeBatch allowed batch spilled safe
  | preCommit epoch =>
    apply running (published (by simp))
    exact (staged.preCommit epoch).2
  | commitEpoch epoch =>
    obtain ⟨isCurrent, isPrepared⟩ := allowed
    obtain ⟨noWriter, noBatches⟩ := staged.prepared isPrepared
    have committed := staged.commit_published isRolling invariant.published isPrepared
    rw [commitEpoch_eq isRolling, ← isCurrent] at committed
    simp only [Call.effect, commitEpoch_eq isRolling]
    apply running committed
    exact .of_empty staged.epoch rfl noWriter noBatches rfl
  | rollbackEpoch epoch =>
    apply running (published (by simp))
    exact staged.rollbackEpoch allowed
  | close =>
    apply ended (published (by simp))
    exact crash_stopped state.ledger .close safe

theorem Invariant.crash {call : Call Row} (allowed : state.ledger.Allows call) (operations : Nat)
    (safe : Safe state (.crash call operations)) :
    Invariant config
      { directory := state.directory.applyAll ((call.effect config sink).2.1.take operations)
        process := none
        ledger := state.ledger.crash call } := by
  have staged := invariant.staged sink isProcess
  have notCommit : ∀ epoch, call ≠ .commitEpoch epoch := by
    rintro epoch rfl
    have unprepared := safe
    cases allowed.2.symm.trans unprepared
  apply ended
  · exact invariant.published.of_onTemporary (crash_commits state.ledger call)
      ((effect_onTemporary staged notCommit).take operations)
  · exact crash_stopped state.ledger call safe

end

include invariant in
theorem Invariant.step (isRolling : config.mode = .rolling) {action : Action Row}
    (safe : Safe state action) (stepped : state.step config action = some next) :
    Invariant config next := by
  cases isProcess : state.process with
  | none =>
    have isStopped := invariant.stopped isProcess
    have cleaned := cleanupTmpFiles_onTemporary state.directory
    cases action with simp only [System.step, isProcess, Option.some.injEq, reduceCtorEq] at stepped
    | opening =>
      subst stepped
      apply running (invariant.published.of_onTemporary rfl cleaned)
      refine .of_empty ?_ rfl rfl rfl isStopped.2
      intro begun
      cases isStopped.1.symm.trans begun
    | crashOpening operations =>
      subst stepped
      exact .ended (invariant.published.of_onTemporary rfl (cleaned.take operations)) isStopped
  | some sink =>
    cases action with
        simp only [System.step, isProcess, Option.ite_none_right_eq_some, Option.some.injEq,
          reduceCtorEq] at stepped
    | call call =>
      obtain ⟨allowed, rfl⟩ := stepped
      exact invariant.call isProcess isRolling allowed safe
    | crash call operations =>
      obtain ⟨allowed, rfl⟩ := stepped
      exact invariant.crash isProcess allowed operations safe

theorem Invariant.start : Invariant config (System.start : System Row) := by
  apply ended
  · refine ⟨fun _ => rfl, ?_⟩
    intro name isFile
    cases isFile
  · exact ⟨rfl, rfl⟩

/-- In rolling mode the sink keeps its promise in every run of safe steps. -/
theorem keepsPromise_of_safe (isRolling : config.mode = .rolling)
    (reached : (system config).Reaches Safe state) : KeepsPromise config state := by
  have invariant : Invariant config state := by
    apply reached.invariant
    · rintro initial rfl
      exact .start
    · intro before action after holds safe stepped
      exact holds.step isRolling safe stepped
  refine ⟨fun epoch _ => invariant.published.rows epoch, ?_⟩
  intro sink isProcess isPrepared
  exact (invariant.staged sink isProcess).commit_held isRolling invariant.published isPrepared

def lines : Encoder Nat .json where
  encodeBatch rows := .ok (rows.map fun row => ⟨[row], 1⟩)
  lossless := by
    intro rows blobs isEncoded
    cases isEncoded
    simp [flatMap_map]
  single isBulk := by cases isBulk

def jsonLines (mode : SinkMode) (maxFileSize : Option Nat) : FileSinkConfig Nat where
  format := .json
  mode := mode
  maxFileSize := maxFileSize
  maxEpochBatches := 10000
  encoder := lines

/-- Two segments, a crash in an unprepared epoch, and two committed epochs. -/
def safeRun : List (Action Nat) :=
  [.opening, .call (.beginEpoch 1), .call (.writeBatch [7] 0), .call (.writeBatch [8] 1),
    .call (.preCommit 1), .call (.commitEpoch 1), .call (.beginEpoch 2),
    .crash (.writeBatch [9] 0) 1, .opening, .call (.rollbackEpoch 2), .call (.beginEpoch 2),
    .call (.writeBatch [9] 0), .call (.preCommit 2), .call (.commitEpoch 2)]

def checkSafe (state : System Nat) : Action Nat → Bool
  | .call (.writeBatch batch _) => batch.isEmpty || decide state.ledger.Writable
  | .call .close => !state.ledger.prepared
  | .crash call _ => !(state.ledger.crash call).prepared
  | _ => true

theorem checkSafe_sound (state : System Nat) (action : Action Nat)
    (checked : checkSafe state action = true) : Safe state action := by
  unfold Safe
  split <;> simp_all [checkSafe]

theorem keepsPromise_twoEpochs :
    ∃ state, (system (jsonLines .rolling (some 2))).run .start safeRun = some state ∧
      state.directory.held (isFinal 1) = [7, 8] ∧
      state.directory.held (isFinal 2) = [9] ∧
      KeepsPromise (jsonLines .rolling (some 2)) state := by
  have reached : (system (jsonLines .rolling (some 2))).Reaches Safe
      (((system (jsonLines .rolling (some 2))).run .start safeRun).getD .start) :=
    .of_checkRun checkSafe_sound (.initial rfl) (by decide)
  exact ⟨_, rfl, rfl, rfl, keepsPromise_of_safe rfl reached⟩

/-- A run after which an epoch is decided and its final files do not hold its committed
rows. -/
def Breaks (config : FileSinkConfig Nat) (actions : List (Action Nat)) : Prop :=
  ∃ state, (system config).run .start actions = some state ∧ ¬KeepsPromise config state

theorem breaks_of_rows {config : FileSinkConfig Nat} {actions : List (Action Nat)} (epoch : Nat)
    (isWrong : ((system config).run .start actions).any (fun state =>
      decide (state.ledger.Decided epoch) &&
        state.directory.held (isFinal epoch) !=
          state.ledger.committedRows epoch) = true) : Breaks config actions := by
  obtain ⟨state, isRun, differs⟩ := (Option.any_eq_true _ _).mp isWrong
  rw [Bool.and_eq_true, decide_eq_true_eq, bne_iff_ne] at differs
  exact ⟨state, isRun, fun keeps => differs.2 (keeps.decided epoch differs.1)⟩

/-- The promise is broken by a crash after a pre-commit, because the next process
removes the temporary files and then commits nothing; in append mode; by a write
after a pre-commit or a commit, which truncates or replaces the segment; and by a crash
between two renamings. -/
theorem fileSink_breaks :
    Breaks (jsonLines .rolling none)
      [.opening, .call (.beginEpoch 1), .call (.writeBatch [7] 0), .call (.preCommit 1),
        .crash (.commitEpoch 1) 0, .opening, .call (.commitEpoch 1)] ∧
    Breaks (jsonLines .append none)
      [.opening, .call (.beginEpoch 1), .call (.writeBatch [7] 0), .call (.preCommit 1),
        .call (.commitEpoch 1)] ∧
    Breaks (jsonLines .rolling none)
      [.opening, .call (.beginEpoch 1), .call (.writeBatch [7] 0), .call (.preCommit 1),
        .call (.writeBatch [8] 0), .call (.preCommit 1), .call (.commitEpoch 1)] ∧
    Breaks (jsonLines .rolling none)
      [.opening, .call (.beginEpoch 1), .call (.writeBatch [7] 0), .call (.preCommit 1),
        .call (.commitEpoch 1), .call (.writeBatch [8] 0), .call (.preCommit 1),
        .call (.commitEpoch 1)] ∧
    Breaks (jsonLines .rolling (some 2))
      [.opening, .call (.beginEpoch 1), .call (.writeBatch [7] 0), .call (.writeBatch [8] 0),
        .call (.preCommit 1), .crash (.commitEpoch 1) 1, .opening, .call (.rollbackEpoch 1)] := by
  refine ⟨?_, ?_, ?_, ?_, ?_⟩
  all_goals exact breaks_of_rows 1 (by decide)

end LaminarDB.Connectors.Files
