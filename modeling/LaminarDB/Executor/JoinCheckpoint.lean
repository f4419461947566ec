import LaminarDB.Executor.IntervalJoinRuns

/-!
# Checkpoints of the interval join

A join that is restored from a checkpoint goes on as the one that was saved: states with the same
live rows return the same pairs, and a checkpoint keeps the live rows.
-/

namespace LaminarDB.Executor.IntervalJoin

open Library State SideState List

variable {Row Other : Type}

section Checkpoint

variable {hash : JoinKey → UInt64} {config : StreamJoinConfig}

/-- The states of a join: cycles run, and the state is saved and restored. -/
inductive Reachable (hash : JoinKey → UInt64) (config : StreamJoinConfig) :
    JoinState Row Other → Prop where
  | new : Reachable hash config .new
  | cycle {state : JoinState Row Other} (input : JoinInput Row Other)
      (reachable : Reachable hash config state) :
      Reachable hash config (executeCycle hash config state input).1
  | saved {state : JoinState Row Other} (reachable : Reachable hash config state) :
      Reachable hash config (snapshotCheckpoint hash config state).1
  | restored {state restored : JoinState Row Other} {checkpoint : JoinStateCheckpoint Row Other}
      (reachable : Reachable hash config state)
      (isSaved : (snapshotCheckpoint hash config state).2 = .ok checkpoint)
      (isRestored : fromCheckpoint hash config checkpoint = .ok restored) :
      Reachable hash config restored

def SameResult : Except DbError (Pairs Row Other) → Except DbError (Pairs Row Other) → Prop
  | .ok result, .ok other => result.Perm other
  | .error error, .error other => error = other
  | _, _ => False

variable (hash config) in
structure Alike (state other : JoinState Row Other) : Prop where
  ready : Ready hash config state
  otherReady : Ready hash config other
  left : state.left.live.Perm other.left.live
  right : state.right.live.Perm other.right.live
  evicted : state.evictedWatermark = other.evictedWatermark

variable {other state : JoinState Row Other} (alike : Alike hash config state other)
  {batch : Option (JoinBatch Row)} {columns : SideColumns} {side : SideState Row}

include alike in
theorem Alike.symm : Alike hash config other state :=
  ⟨alike.otherReady, alike.ready, alike.left.symm, alike.right.symm, alike.evicted.symm⟩

theorem Alike.trans {middle other : JoinState Row Other}
    (first : Alike hash config state middle) (second : Alike hash config middle other) :
    Alike hash config state other :=
  ⟨first.ready, second.otherReady, first.left.trans second.left, first.right.trans second.right,
    first.evicted.trans second.evicted⟩

theorem addNew_error :
    (addNew hash columns side batch).2 =
      batch.bind fun rows => if rows.isEmpty then none else columns.error := by
  cases batch with
  | none => rfl
  | some rows =>
    simp only [addNew, Option.elim_some, addBatch, Option.bind_some]
    cases rows.isEmpty with
    | true => rfl
    | false =>
      cases columns.error with
      | none | some => rfl

theorem addNew_of_error {error : DbError}
    (unsupported : columns.error = some error) : (addNew hash columns side batch).1 = side := by
  cases batch with
  | none => rfl
  | some rows =>
    simp only [addNew, Option.elim_some, addBatch, unsupported]
    cases rows.isEmpty with
    | true | false => rfl

variable {input : JoinInput Row Other}

theorem addNew_live (indexed : Indexed hash side)
    (readable : Readable columns side) {batches : List (JoinBatch Row)} :
    let after := (addNew hash columns side (newBatch batches)).1
    Indexed hash after ∧ Readable columns after ∧ after.live.Perm (side.live ++
      if columns.error = none then batches.flatten.filter keyed else []) := by
  cases isError : columns.error with
  | none =>
    obtain ⟨-, added, addedReadable, perm, -⟩ :=
      addNew_spec indexed readable (accepted_of_supported isError batches)
    exact ⟨added, addedReadable, by simpa using perm⟩
  | some error =>
    rw [addNew_of_error isError]
    exact ⟨indexed, readable, by simp⟩

theorem executeCycle_refused
    (refused : ¬(Accepted config.left input.left ∧ Accepted config.right input.right)) :
    ∃ error, ∀ state, executeCycle hash config state input =
      ({ state with right := (addNew hash config.right state.right (newBatch input.right)).1 },
        .error error) := by
  obtain ⟨error, isError⟩ : ∃ error, (((newBatch input.right).bind fun rows =>
      if rows.isEmpty then none else config.right.error).or
        (((newBatch input.left).bind fun _ => config.left.error).or
          ((newBatch input.right).bind fun _ => config.right.error))) = some error := by
    rw [← Option.ne_none_iff_exists', ne_eq, Option.or_eq_none_iff, Option.or_eq_none_iff]
    exact fun noError => refused noError.2
  refine ⟨error, fun state => ?_⟩
  rw [← @addNew_error _ hash _ _ state.right] at isError
  simp only [executeCycle]
  generalize addNew hash config.right state.right (newBatch input.right) = right at isError ⊢
  obtain ⟨right, rightError⟩ := right
  cases rightError with
  | some other =>
    cases isError
    rfl
  | none =>
    rw [Option.none_or] at isError
    cases isLeft : (newBatch input.left).bind fun _ => config.left.error with rw [isLeft] at isError
    | some other =>
      cases isError
      rfl
    | none =>
      rw [Option.none_or] at isError
      rw [isError]

include alike in
theorem executeCycle_alike :
    SameResult (executeCycle hash config state input).2 (executeCycle hash config other input).2 ∧
      Alike hash config (executeCycle hash config state input).1
        (executeCycle hash config other input).1 := by
  by_cases accepted : Accepted config.left input.left ∧ Accepted config.right input.right
  · obtain ⟨after, result, isCycle, cycle⟩ := executeCycle_spec alike.ready accepted.1 accepted.2
    obtain ⟨otherAfter, otherResult, isOtherCycle, otherCycle⟩ :=
      executeCycle_spec alike.otherReady accepted.1 accepted.2
    rw [isCycle, isOtherCycle]
    have sameStays : stays other config input.watermark = stays state config input.watermark := by
      unfold stays
      rw [alike.evicted]
    refine ⟨?_, cycle.ready, otherCycle.ready, ?_, ?_, ?_⟩
    · refine cycle.result.trans (.trans ?_ otherCycle.result.symm)
      exact (joined_perm (.refl _) (alike.right.append_right _)).append
        (joined_perm alike.left (.refl _))
    · refine cycle.left.trans (.trans ?_ otherCycle.left.symm)
      rw [sameStays]
      exact (alike.left.append_right _).filter _
    · refine cycle.right.trans (.trans ?_ otherCycle.right.symm)
      rw [sameStays]
      exact (alike.right.append_right _).filter _
    · rw [cycle.evicted, otherCycle.evicted, alike.evicted]
  · obtain ⟨error, isError⟩ := executeCycle_refused accepted
    rw [isError state, isError other]
    obtain ⟨added, addedReadable, perm⟩ := addNew_live alike.ready.right alike.ready.rightColumns
    obtain ⟨otherAdded, otherReadable, otherPerm⟩ :=
      addNew_live alike.otherReady.right alike.otherReady.rightColumns
    exact ⟨rfl, ⟨alike.ready.left, added, alike.ready.leftColumns, addedReadable⟩,
      ⟨alike.otherReady.left, otherAdded, alike.otherReady.leftColumns, otherReadable⟩, alike.left,
      perm.trans ((alike.right.append_right _).trans otherPerm.symm), alike.evicted⟩

include alike in
theorem runCycles_alike {inputs : List (JoinInput Row Other)} :
    Forall₂ SameResult (runCycles hash config state inputs).2
      (runCycles hash config other inputs).2 := by
  induction inputs generalizing state other with
  | nil => exact .nil
  | cons input inputs ih =>
    obtain ⟨same, after⟩ := executeCycle_alike alike
    exact .cons same (ih after)

section

variable (indexed : Indexed hash side) (readable : Readable columns side)

include indexed readable

theorem compactSide_spec :
    let after := compactSide hash columns side
    after.2 = none ∧ Indexed hash after.1 ∧ Readable columns after.1 ∧
      after.1.live.Perm side.live ∧ after.1.batches.flatten.Perm side.live := by
  unfold compactSide
  split
  · rename_i isEmpty
    have noBatches := isEmpty_iff.mp isEmpty
    have noRows : side.live = [] := by
      refine eq_nil_iff_forall_not_mem.mpr fun row mem => ?_
      obtain ⟨entry, -, isRow⟩ := mem_filterMap.mp mem
      rw [noBatches] at isRow
      cases isRow
    refine ⟨rfl, indexed, readable, .refl _, ?_⟩
    rw [noBatches, noRows]
    exact .refl _
  · rename_i someBatches
    have supported : columns.error = none :=
      readable.resolve_right fun noBatches => someBatches (isEmpty_iff.mpr noBatches)
    obtain ⟨noError, compacted, live, rows⟩ := compact_spec indexed supported
    exact ⟨noError, compacted, .inl supported, live, rows⟩

theorem addBatches_spec {batches : List (JoinBatch Row)}
    (supported : columns.error = none ∨ batches = []) :
    let added := addBatches hash columns side batches
    added.2 = none ∧ Indexed hash added.1 ∧ Readable columns added.1 ∧
      added.1.live.Perm (side.live ++ batches.flatten.filter keyed) := by
  induction batches generalizing side with
  | nil =>
    refine ⟨rfl, indexed, readable, ?_⟩
    rw [flatten_nil, filter_nil, append_nil]
    exact .refl _
  | cons batch batches ih =>
    have isSupported := supported.resolve_right (cons_ne_nil batch batches)
    obtain ⟨noError, added, perm, -⟩ := addBatch_spec indexed isSupported
    unfold addBatches
    generalize side.addBatch hash columns batch = after at noError added perm ⊢
    obtain ⟨after, error⟩ := after
    cases noError
    obtain ⟨restOk, restIndexed, restReadable, restPerm⟩ :=
      ih added (.inl isSupported) (.inl isSupported)
    refine ⟨restOk, restIndexed, restReadable, restPerm.trans ?_⟩
    rw [flatten_cons, filter_append, ← append_assoc]
    exact perm.append_right _

theorem restoreSide_spec :
    let batches := (compactSide hash columns side).1.batches.filter fun batch => !batch.isEmpty
    (addBatches hash columns .new batches).2 = none ∧
      Indexed hash (addBatches hash columns .new batches).1 ∧
      Readable columns (addBatches hash columns .new batches).1 ∧
      ((addBatches hash columns .new batches).1.live).Perm side.live := by
  obtain ⟨-, -, savedReadable, -, rows⟩ := compactSide_spec indexed readable
  have supported : columns.error = none ∨
      ((compactSide hash columns side).1.batches.filter fun batch => !batch.isEmpty) = [] :=
    savedReadable.imp_right fun noBatches => by rw [noBatches]; rfl
  obtain ⟨noError, restored, restoredReadable, perm⟩ :=
    @addBatches_spec Row hash columns .new (fun _ mem => (nomatch mem)) (.inr rfl) _ supported
  refine ⟨noError, restored, restoredReadable, perm.trans ?_⟩
  have flattened : ((compactSide hash columns side).1.batches.filter fun batch =>
      !batch.isEmpty).flatten = (compactSide hash columns side).1.batches.flatten :=
    flatten_filter_not_isEmpty
  rw [flattened]
  refine (rows.filter keyed).trans (.of_eq (filter_eq_self.mpr fun row mem => ?_))
  exact keyed_of_mem_live indexed mem

end

theorem fromCheckpoint_eq {checkpoint : JoinStateCheckpoint Row Other}
    (left : (addBatches hash config.left .new checkpoint.leftBatches).2 = none)
    (right : (addBatches hash config.right .new checkpoint.rightBatches).2 = none) :
    fromCheckpoint hash config checkpoint = .ok
      { left := (addBatches hash config.left .new checkpoint.leftBatches).1
        right := (addBatches hash config.right .new checkpoint.rightBatches).1
        evictedWatermark := checkpoint.lastEvictedWatermark } := by
  unfold fromCheckpoint
  generalize addBatches hash config.left .new checkpoint.leftBatches = restoredLeft at left ⊢
  generalize addBatches hash config.right .new checkpoint.rightBatches = restoredRight at right ⊢
  obtain ⟨restoredLeft, leftError⟩ := restoredLeft
  obtain ⟨restoredRight, rightError⟩ := restoredRight
  cases left
  cases right
  rfl

theorem snapshot_alike (ready : Ready hash config state) :
    ∃ saved checkpoint restored,
      snapshotCheckpoint hash config state = (saved, .ok checkpoint) ∧
        fromCheckpoint hash config checkpoint = .ok restored ∧ Alike hash config state saved ∧
        Alike hash config state restored := by
  obtain ⟨leftOk, leftSaved, leftSavedReadable, leftSavedLive, -⟩ :=
    compactSide_spec ready.left ready.leftColumns
  obtain ⟨rightOk, rightSaved, rightSavedReadable, rightSavedLive, -⟩ :=
    compactSide_spec ready.right ready.rightColumns
  obtain ⟨leftBack, leftIndexed, leftReadable, leftLive⟩ :=
    restoreSide_spec ready.left ready.leftColumns
  obtain ⟨rightBack, rightIndexed, rightReadable, rightLive⟩ :=
    restoreSide_spec ready.right ready.rightColumns
  simp only [snapshotCheckpoint]
  generalize compactSide hash config.left state.left = left
    at leftOk leftSaved leftSavedReadable leftSavedLive leftBack leftIndexed leftReadable leftLive ⊢
  generalize compactSide hash config.right state.right = right
    at rightOk rightSaved rightSavedReadable rightSavedLive rightBack rightIndexed rightReadable
      rightLive ⊢
  obtain ⟨left, leftError⟩ := left
  obtain ⟨right, rightError⟩ := right
  cases leftOk
  cases rightOk
  exact ⟨_, _, _, rfl, fromCheckpoint_eq leftBack rightBack,
    ⟨ready, ⟨leftSaved, rightSaved, leftSavedReadable, rightSavedReadable⟩, leftSavedLive.symm,
      rightSavedLive.symm, rfl⟩,
    ⟨ready, ⟨leftIndexed, rightIndexed, leftReadable, rightReadable⟩, leftLive.symm,
      rightLive.symm, rfl⟩⟩

theorem Reachable.ready (reachable : Reachable hash config state) : Ready hash config state := by
  induction reachable with
  | new => exact new_ready
  | cycle input _ ready =>
    exact (executeCycle_alike ⟨ready, ready, .refl _, .refl _, rfl⟩).2.ready
  | saved _ ready =>
    obtain ⟨saved, checkpoint, restored, isSaved, -, alike, -⟩ := snapshot_alike ready
    rw [isSaved]
    exact alike.otherReady
  | restored _ isSaved isRestored ready =>
    obtain ⟨saved, checkpoint, restored, saves, restores, -, alike⟩ := snapshot_alike ready
    rw [saves] at isSaved
    cases isSaved
    cases restores.symm.trans isRestored
    exact alike.otherReady

/-- A join that is saved and restored goes on as the join that was saved. -/
theorem fromCheckpoint_faithful {state : JoinState Row Other}
    (reachable : Reachable hash config state) :
    ∃ saved checkpoint restored,
      snapshotCheckpoint hash config state = (saved, .ok checkpoint) ∧
        fromCheckpoint hash config checkpoint = .ok restored ∧
        restored.left.live.Perm state.left.live ∧ restored.right.live.Perm state.right.live ∧
        ∀ inputs : List (JoinInput Row Other),
          Forall₂ SameResult (runCycles hash config restored inputs).2
              (runCycles hash config state inputs).2 ∧
            Forall₂ SameResult (runCycles hash config restored inputs).2
              (runCycles hash config saved inputs).2 := by
  obtain ⟨saved, checkpoint, restored, isSaved, isRestored, alikeSaved, alikeRestored⟩ :=
    snapshot_alike reachable.ready
  exact ⟨saved, checkpoint, restored, isSaved, isRestored, alikeRestored.left.symm,
    alikeRestored.right.symm, fun inputs => ⟨runCycles_alike alikeRestored.symm,
      runCycles_alike (alikeRestored.symm.trans alikeSaved)⟩⟩

/-- Two orders and a payment, at a watermark that evicts the first order. -/
def evictingCycle : JoinInput String String :=
  ⟨[[eventRow 1 true (.clamp 500), eventRow 2 true (.clamp 3000)]],
    [[eventRow 2 true (.clamp 3200)]], .clamp 2500⟩

def evictedState : JoinState String String :=
  (executeCycle (fun _ => 0) ordersPayments .new evictingCycle).1

theorem fromCheckpoint_ordersPayments :
    evictedState.left.batches.flatten.length = 2 ∧ ∃ saved checkpoint restored,
      snapshotCheckpoint (fun _ => 0) ordersPayments evictedState = (saved, .ok checkpoint) ∧
        fromCheckpoint (fun _ => 0) ordersPayments checkpoint = .ok restored ∧
        saved.left.batches.flatten.length = 1 ∧ restored.left.live.length = 1 ∧
        restored.right.live.length = 1 := by
  obtain ⟨saved, checkpoint, restored, isSaved, isRestored, left, right, -⟩ :=
    @fromCheckpoint_faithful String String _ _ _ (.cycle evictingCycle .new)
  refine ⟨rfl, saved, checkpoint, restored, isSaved, isRestored, ?_, left.length_eq,
    right.length_eq⟩
  have compacted := congrArg (fun result => result.1.left.batches.flatten.length) isSaved
  exact compacted.symm.trans (by decide +kernel)

end Checkpoint

end LaminarDB.Executor.IntervalJoin
