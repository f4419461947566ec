import LaminarDB.Executor.JoinIndex

/-!
# Runs of the interval join

Over any cycles the interval join returns the pairs of rows that match by key and time,
each once, as long as the times that it reads are those of the rows. A null time is read
like any other value: its row can be joined.
-/

namespace LaminarDB.Executor.IntervalJoin

open Library State SideState List

variable {Row Other : Type} {boundMs evicted watermark : I64} {input : JoinInput Row Other}
  {hash : JoinKey → UInt64} {config : StreamJoinConfig} {row : JoinRow Row}
  {state : JoinState Row Other}

section Cycle

theorem boundMs_nonneg : 0 ≤ config.boundMs.toInt := by
  simp only [StreamJoinConfig.boundMs, I64.clamp]
  omega

variable {batches : List (JoinBatch Row)} {others : List (JoinBatch Other)}
  {admits : Position → Bool} {probed : SideState Other}

section Probe

variable (indexed : Indexed hash probed) (nonneg : 0 ≤ boundMs.toInt)
  (all : ∀ entry ∈ probed.index.flat, admits entry.2.2 = true)
  (there : ∀ position other, rowAt probed.batches position = some other →
    rowAt others position = some other)

include indexed nonneg all there

theorem pairsAt_probeRow {place : Position} (here : rowAt batches place = some row) :
    (pairsAt batches others (match row.key with
      | none => []
      | some key =>
        ((probed.index.probe (hash key) row.timestamp boundMs).filter fun candidate =>
          admits candidate && (rowAt probed.batches candidate).any (keysEqual row)).map
            fun candidate => (place, candidate))).Perm
      ((probed.live.filter (matching boundMs row)).map fun other => (row, other)) := by
  cases isKey : row.key with
  | none =>
    have nothing : probed.live.filter (matching boundMs row) = [] := by
      refine filter_eq_nil_iff.mpr fun other _ isMatch => ?_
      obtain ⟨key, isSome, -⟩ := keysEqual_iff.mp (Bool.and_eq_true_iff.mp isMatch).1
      cases isKey.symm.trans isSome
    rw [nothing]
    exact .refl _
  | some key =>
    refine .trans (.of_eq ?_) ((probe_rows indexed nonneg isKey all).map _)
    unfold pairsAt
    rw [filterMap_map, map_filterMap]
    refine filterMap_congr fun candidate mem => ?_
    have present := (Bool.and_eq_true_iff.mp (mem_filter.mp mem).2).2
    obtain ⟨other, isOther, -⟩ := (Option.any_eq_true _ _).mp present
    simp only [Function.comp_apply, here, Option.bind_some, isOther, there candidate other isOther]

theorem pairsAt_probeRows {batchIdx : Nat} {rows : JoinBatch Row}
    (here : ∀ rowIdx row, rows[rowIdx]? = some row → rowAt batches (batchIdx, rowIdx) = some row) :
    (pairsAt batches others (probeRows hash probed admits batchIdx boundMs rows)).Perm
      (joined (matching boundMs) rows probed.live) := by
  have indexedRows : joined (matching boundMs) rows probed.live =
      rows.zipIdx.flatMap fun row => (probed.live.filter (matching boundMs row.1)).map
        fun other => (row.1, other) := by
    unfold joined
    conv_lhs => rw [← zipIdx_map_fst 0 rows, flatMap_map]
  rw [indexedRows, probeRows, pairsAt, filterMap_flatMap]
  refine Perm.flatMap_left _ fun row mem => ?_
  exact pairsAt_probeRow indexed nonneg all there
    (here row.2 row.1 (mem_zipIdx_iff_getElem?.mp mem))

end Probe

theorem pairsAt_swap {left : List (JoinBatch Row)} {right : List (JoinBatch Other)}
    (pairs : List (Position × Position)) :
    pairsAt left right (pairs.map Prod.swap) = (pairsAt right left pairs).map Prod.swap := by
  unfold pairsAt
  rw [filterMap_map, map_filterMap]
  refine filterMap_congr fun pair _ => ?_
  simp only [Function.comp_apply, Prod.fst_swap, Prod.snd_swap]
  cases rowAt left pair.2 with
  | none | some => cases rowAt right pair.1 <;> rfl

variable (hash config) in
structure Ready (state : JoinState Row Other) : Prop where
  left : Indexed hash state.left
  right : Indexed hash state.right
  leftColumns : Readable config.left state.left
  rightColumns : Readable config.right state.right

def Accepted (columns : SideColumns) (batches : List (JoinBatch Row)) : Prop :=
  ((newBatch batches).bind fun _ => columns.error) = none

variable {columns : SideColumns}

theorem accepted_of_supported (supported : columns.error = none)
    (batches : List (JoinBatch Row)) : Accepted columns batches := by
  rw [Accepted, supported, Option.bind_fun_none]

theorem addNew_spec {side : SideState Row} (indexed : Indexed hash side)
    (readable : Readable columns side) (accepted : Accepted columns batches) :
    let added := addNew hash columns side (newBatch batches)
    added.2 = none ∧ Indexed hash added.1 ∧ Readable columns added.1 ∧
      added.1.live.Perm (side.live ++ batches.flatten.filter keyed) ∧
      (∀ position row, rowAt side.batches position = some row →
        rowAt added.1.batches position = some row) ∧
      ∀ rowIdx row, ((newBatch batches).getD [])[rowIdx]? = some row →
        rowAt added.1.batches (side.batches.length, rowIdx) = some row := by
  unfold Accepted at accepted
  unfold newBatch at accepted ⊢
  split
  · rename_i noBatches
    rw [isEmpty_iff.mp noBatches]
    refine ⟨rfl, indexed, readable, ?_, fun _ _ found => found,
      fun rowIdx row found => nomatch found⟩
    rw [flatten_nil, filter_nil, append_nil]
    exact .refl _
  · rename_i someBatches
    rw [if_neg someBatches] at accepted
    obtain ⟨noError, added, rest⟩ := addBatch_spec indexed accepted
    exact ⟨noError, added, .inl accepted, rest⟩

theorem newBatch_getD : (newBatch batches).getD [] = batches.flatten := by
  unfold newBatch
  split
  · rename_i noBatches
    rw [isEmpty_iff.mp noBatches]
    rfl
  · rfl

def stays (state : JoinState Row Other) (config : StreamJoinConfig) (watermark timestamp : I64) :
    Bool :=
  watermark.saturatingSub config.boundMs ≤ state.evictedWatermark ||
    watermark.saturatingSub config.boundMs ≤ timestamp

theorem evictExpired_spec (ready : Ready hash config state) (watermark : I64) :
    ∃ after, evictExpired hash config state watermark = (after, none) ∧
      Ready hash config after ∧
      after.left.live.Perm (state.left.live.filter fun row =>
        stays state config watermark row.timestamp) ∧
      after.right.live.Perm (state.right.live.filter fun row =>
        stays state config watermark row.timestamp) ∧
      after.evictedWatermark =
        max state.evictedWatermark (watermark.saturatingSub config.boundMs) := by
  simp only [evictExpired, stays]
  generalize watermark.saturatingSub config.boundMs = cutoff
  split
  · rename_i advances
    obtain ⟨leftOk, leftIndexed, leftColumns, leftLive⟩ :=
      evictBefore_spec ready.left ready.leftColumns cutoff
    obtain ⟨rightOk, rightIndexed, rightColumns, rightLive⟩ :=
      evictBefore_spec ready.right ready.rightColumns cutoff
    generalize state.left.evictBefore hash config.left cutoff = left
      at leftOk leftIndexed leftColumns leftLive ⊢
    generalize state.right.evictBefore hash config.right cutoff = right
      at rightOk rightIndexed rightColumns rightLive ⊢
    obtain ⟨left, leftError⟩ := left
    obtain ⟨right, rightError⟩ := right
    cases leftOk
    cases rightOk
    refine ⟨_, rfl, ⟨leftIndexed, rightIndexed, leftColumns, rightColumns⟩, ?_, ?_,
      (max_eq_right advances.le).symm⟩
    · simpa [not_le.mpr advances] using leftLive
    · simpa [not_le.mpr advances] using rightLive
  · rename_i stands
    have early := not_lt.mp stands
    refine ⟨state, rfl, ready, ?_, ?_, (max_eq_left early).symm⟩
    · simp [early]
    · simp [early]

variable (hash config) in
structure CycleSpec
    (state : JoinState Row Other) (input : JoinInput Row Other) (after : JoinState Row Other)
    (result : List (JoinRow Row × JoinRow Other)) : Prop where
  ready : Ready hash config after
  result : result.Perm
    (joined (matching config.boundMs) input.left.flatten
        (state.right.live ++ input.right.flatten.filter keyed) ++
      joined (matching config.boundMs) state.left.live input.right.flatten)
  left : after.left.live.Perm ((state.left.live ++ input.left.flatten.filter keyed).filter
    fun row => stays state config input.watermark row.timestamp)
  right : after.right.live.Perm ((state.right.live ++ input.right.flatten.filter keyed).filter
    fun row => stays state config input.watermark row.timestamp)
  evicted : after.evictedWatermark =
    max state.evictedWatermark (input.watermark.saturatingSub config.boundMs)

theorem executeCycle_spec (ready : Ready hash config state)
    (leftAccepted : Accepted config.left input.left)
    (rightAccepted : Accepted config.right input.right) :
    ∃ after result, executeCycle hash config state input = (after, .ok result) ∧
      CycleSpec hash config state input after result := by
  obtain ⟨rightOk, rightIndexed, rightColumns, rightLive, rightOld, rightNew⟩ :=
    addNew_spec ready.right ready.rightColumns rightAccepted
  obtain ⟨leftOk, leftIndexed, leftColumns, leftLive, leftOld, leftNew⟩ :=
    addNew_spec ready.left ready.leftColumns leftAccepted
  unfold Accepted at leftAccepted rightAccepted
  simp only [executeCycle, leftAccepted, rightAccepted]
  generalize addNew hash config.right state.right (newBatch input.right) = right
    at rightOk rightIndexed rightColumns rightLive rightOld rightNew ⊢
  generalize addNew hash config.left state.left (newBatch input.left) = left
    at leftOk leftIndexed leftColumns leftLive leftOld leftNew ⊢
  obtain ⟨right, rightError⟩ := right
  obtain ⟨left, leftError⟩ := left
  cases leftOk
  cases rightOk
  replace rightIndexed : Indexed hash right := rightIndexed
  have added : Ready hash config { state with left, right } :=
    ⟨leftIndexed, rightIndexed, leftColumns, rightColumns⟩
  obtain ⟨after, isAfter, readyAfter, evictedLeft, evictedRight, isEvicted⟩ :=
    evictExpired_spec added input.watermark
  have ofLeft : (pairsAt left.batches right.batches (probeRows hash right (fun _ => true)
      state.left.batches.length config.boundMs ((newBatch input.left).getD []))).Perm
      (joined (matching config.boundMs) ((newBatch input.left).getD []) right.live) :=
    pairsAt_probeRows rightIndexed boundMs_nonneg (fun _ _ => rfl) (fun _ _ found => found) leftNew
  have oldPositions : ∀ entry ∈ state.left.index.flat,
      decide (entry.2.2.1 < state.left.batches.length) = true := by
    intro entry mem
    obtain ⟨row, key, found, -⟩ := ready.left entry mem
    obtain ⟨rows, isBatch, -⟩ := Option.bind_eq_some_iff.mp found
    exact decide_eq_true (List.getElem?_eq_some_iff.mp isBatch).1
  have ofRight : (pairsAt right.batches left.batches (probeRows hash state.left
      (fun candidate => candidate.1 < state.left.batches.length) state.right.batches.length
      config.boundMs ((newBatch input.right).getD []))).Perm
      (joined (matching config.boundMs) ((newBatch input.right).getD []) state.left.live) :=
    pairsAt_probeRows ready.left boundMs_nonneg oldPositions leftOld rightNew
  rw [newBatch_getD] at ofLeft ofRight
  simp only [newBatch_getD, isAfter]
  refine ⟨after, _, rfl, readyAfter, ?_, ?_, ?_, isEvicted⟩
  · refine .trans (.of_eq (filterMap_append.trans (congrArg _ (pairsAt_swap _)))) ?_
    refine (ofLeft.trans (joined_perm (.refl _) rightLive)).append ?_
    refine (ofRight.map Prod.swap).trans (.trans (.of_eq ?_) joined_swap.symm)
    have flipped : matching config.boundMs = fun (row : JoinRow Other) (other : JoinRow Row) =>
        matching config.boundMs other row := by
      funext row other
      exact matching_comm config.boundMs
    rw [flipped]
  · exact evictedLeft.trans (leftLive.filter _)
  · exact evictedRight.trans (rightLive.filter _)

theorem new_ready : Ready hash config (JoinState.new : JoinState Row Other) :=
  ⟨fun _ mem => (nomatch mem), fun _ mem => (nomatch mem), .inr rfl, .inr rfl⟩

end Cycle

section Runs

variable (hash : JoinKey → UInt64) (config : StreamJoinConfig)

abbrev Pairs (Row Other : Type) := List (JoinRow Row × JoinRow Other)

def runCycles : JoinState Row Other → List (JoinInput Row Other) →
    JoinState Row Other × List (Except DbError (Pairs Row Other))
  | state, [] => (state, [])
  | state, input :: inputs =>
    let cycle := executeCycle hash config state input
    let rest := runCycles cycle.1 inputs
    (rest.1, cycle.2 :: rest.2)

variable (inputs : List (JoinInput Row Other))

def leftRows : List (JoinRow Row) :=
  inputs.flatMap fun input => input.left.flatten

def rightRows : List (JoinRow Other) :=
  inputs.flatMap fun input => input.right.flatten

def pairs (row : JoinRow Row) (other : JoinRow Other) : Bool :=
  keysEqual row other &&
    match row.time.instant, other.time.instant with
    | some instant, some otherInstant => |instant - otherInstant| ≤ (config.timeBound : ℚ)
    | _, _ => false

def NotBefore (watermark : I64) (row : JoinRow Row) : Prop :=
  ∀ instant, row.time.instant = some instant → (watermark.toInt : ℚ) ≤ instant

def OnTime : Prop :=
  inputs.Pairwise fun earlier later =>
    (∀ row ∈ later.left.flatten, NotBefore earlier.watermark row) ∧
      ∀ row ∈ later.right.flatten, NotBefore earlier.watermark row

def Exact (row : JoinRow Row) : Prop :=
  row.time.instant = some (row.timestamp.toInt : ℚ)

/-- The rows of the run that have a key have a time, and it is read as it is. -/
structure ExactRun (inputs : List (JoinInput Row Other)) : Prop where
  left : ∀ row ∈ leftRows inputs, keyed row = true → Exact row
  right : ∀ row ∈ rightRows inputs, keyed row = true → Exact row
  bound : (config.timeBound : ℤ) ≤ I64.maxValue.toInt

end Runs

section Invariant

variable {other : JoinRow Other} {seenRight : List (JoinRow Other)} {seenLeft : List (JoinRow Row)}
  {inputs : List (JoinInput Row Other)}

theorem keyed_of_matching
    (isMatch : matching boundMs row other = true) : keyed row = true ∧ keyed other = true := by
  obtain ⟨key, isKey, isOtherKey⟩ := keysEqual_iff.mp (Bool.and_eq_true_iff.mp isMatch).1
  exact ⟨by rw [keyed, isKey]; rfl, by rw [keyed, isOtherKey]; rfl⟩

section

variable (fits : (config.timeBound : ℤ) ≤ I64.maxValue.toInt)

include fits

theorem boundMs_eq : config.boundMs.toInt = config.timeBound := by
  have limit : I64.maxValue.toInt = 2 ^ 63 - 1 := rfl
  simp only [StreamJoinConfig.boundMs, I64.clamp]
  omega

theorem matching_eq_pairs
    (exact : keyed row = true → Exact row) (otherExact : keyed other = true → Exact other) :
    matching config.boundMs row other = pairs config row other := by
  unfold matching pairs
  cases equal : keysEqual row other with
  | false => rfl
  | true =>
    obtain ⟨key, isKey, isOtherKey⟩ := keysEqual_iff.mp equal
    have isExact : Exact row := exact (by rw [keyed, isKey]; rfl)
    have isOtherExact : Exact other := otherExact (by rw [keyed, isOtherKey]; rfl)
    rw [isExact, isOtherExact]
    simp only [Bool.true_and, near, boundMs_eq fits, decide_eq_decide]
    norm_cast

end

theorem cutoff_le {timestamp other : I64} (late : watermark.toInt ≤ timestamp.toInt)
    (isNear : |timestamp.toInt - other.toInt| ≤ boundMs.toInt) :
    watermark.saturatingSub boundMs ≤ other := by
  rw [I64.le_iff]
  rw [abs_le] at isNear
  simp only [I64.saturatingSub, I64.clamp]
  have lower := other.lower
  omega

def JoinInput.times (input : JoinInput Row Other) : List I64 :=
  (input.left.flatten.filter keyed).map (·.timestamp) ++
    (input.right.flatten.filter keyed).map (·.timestamp)

def Spares (config : StreamJoinConfig) (evicted : I64) (inputs : List (JoinInput Row Other)) :
    Prop :=
  ∀ input ∈ inputs, ∀ timestamp ∈ input.times, ∀ other : I64,
    |timestamp.toInt - other.toInt| ≤ config.boundMs.toInt → evicted ≤ other

theorem times_left (mem : row ∈ input.left.flatten) (isKeyed : keyed row = true) :
    row.timestamp ∈ input.times :=
  mem_append_left _ (mem_map_of_mem (mem_filter.mpr ⟨mem, isKeyed⟩))

theorem times_right {row : JoinRow Other}
    (mem : row ∈ input.right.flatten) (isKeyed : keyed row = true) : row.timestamp ∈ input.times :=
  mem_append_right _ (mem_map_of_mem (mem_filter.mpr ⟨mem, isKeyed⟩))

theorem le_times (leftExact : ∀ row ∈ input.left.flatten, keyed row = true → Exact row)
    (rightExact : ∀ row ∈ input.right.flatten, keyed row = true → Exact row)
    (leftLate : ∀ row ∈ input.left.flatten, NotBefore watermark row)
    (rightLate : ∀ row ∈ input.right.flatten, NotBefore watermark row) :
    ∀ timestamp ∈ input.times, watermark.toInt ≤ timestamp.toInt := by
  intro timestamp mem
  rcases mem_append.mp mem with inLeft | inRight
  · obtain ⟨row, isRow, rfl⟩ := mem_map.mp inLeft
    obtain ⟨isRow, isKeyed⟩ := mem_filter.mp isRow
    exact_mod_cast leftLate row isRow _ (leftExact row isRow isKeyed)
  · obtain ⟨row, isRow, rfl⟩ := mem_map.mp inRight
    obtain ⟨isRow, isKeyed⟩ := mem_filter.mp isRow
    exact_mod_cast rightLate row isRow _ (rightExact row isRow isKeyed)

theorem spares_max (spares : Spares config evicted inputs)
    (late : ∀ later ∈ inputs, ∀ timestamp ∈ later.times, input.watermark.toInt ≤ timestamp.toInt) :
    Spares config (max evicted (input.watermark.saturatingSub config.boundMs)) inputs :=
  fun later mem timestamp isTime other isNear =>
    max_le (spares later mem timestamp isTime other isNear)
      (cutoff_le (late later mem timestamp isTime) isNear)

/-- The rows of a side that are live: those that are not before the last eviction. -/
def LiveOf (evicted : I64) (seen : List (JoinRow Row)) (side : SideState Row) : Prop :=
  side.live.Perm (seen.filter fun row => keyed row && evicted ≤ row.timestamp)

theorem live_of_matching (isMatch : matching boundMs row other = true)
    (spares : keyed row = true → ∀ timestamp : I64,
      |row.timestamp.toInt - timestamp.toInt| ≤ boundMs.toInt → evicted ≤ timestamp) :
    (keyed other && decide (evicted ≤ other.timestamp)) = true := by
  obtain ⟨isKeyed, otherKeyed⟩ := keyed_of_matching isMatch
  have isNear := of_decide_eq_true (Bool.and_eq_true_iff.mp isMatch).2
  rw [otherKeyed, Bool.true_and, decide_eq_true_iff]
  exact spares isKeyed other.timestamp isNear

theorem cycle_joined {newLeft : List (JoinRow Row)} {newRight : List (JoinRow Other)}
    (leftSpares : ∀ row ∈ newLeft, keyed row = true → ∀ timestamp : I64,
      |row.timestamp.toInt - timestamp.toInt| ≤ boundMs.toInt → evicted ≤ timestamp)
    (rightSpares : ∀ row ∈ newRight, keyed row = true → ∀ timestamp : I64,
      |row.timestamp.toInt - timestamp.toInt| ≤ boundMs.toInt → evicted ≤ timestamp) :
    (joined (matching boundMs) newLeft
        ((seenRight.filter fun row => keyed row && evicted ≤ row.timestamp) ++
          newRight.filter keyed) ++
      joined (matching boundMs)
        (seenLeft.filter fun row => keyed row && evicted ≤ row.timestamp) newRight).Perm
      (joined (matching boundMs) newLeft (seenRight ++ newRight) ++
        joined (matching boundMs) seenLeft newRight) := by
  have old : joined (matching boundMs) newLeft
      (seenRight.filter fun row => keyed row && evicted ≤ row.timestamp) =
        joined (matching boundMs) newLeft seenRight :=
    joined_filter_right fun row mem other _ isMatch => live_of_matching isMatch (leftSpares row mem)
  have new : joined (matching boundMs) newLeft (newRight.filter keyed) =
      joined (matching boundMs) newLeft newRight :=
    joined_filter_right fun row _ other _ isMatch => (keyed_of_matching isMatch).2
  have kept : joined (matching boundMs)
      (seenLeft.filter fun row => keyed row && evicted ≤ row.timestamp) newRight =
        joined (matching boundMs) seenLeft newRight :=
    joined_filter_left fun row _ other mem isMatch =>
      live_of_matching (matching_comm boundMs ▸ isMatch) (rightSpares other mem)
  rw [kept]
  refine Perm.append_right _ (joined_append_right.trans ?_)
  rw [old, new]
  exact joined_append_right.symm

theorem liveOf_cycle {cutoff : I64} {seen rows : List (JoinRow Row)}
    (late : ∀ row ∈ rows, keyed row = true → evicted ≤ row.timestamp) :
    ((seen.filter fun row => keyed row && evicted ≤ row.timestamp) ++ rows.filter keyed).filter
        (fun row => cutoff ≤ evicted || cutoff ≤ row.timestamp) =
      (seen ++ rows).filter fun row => keyed row && max evicted cutoff ≤ row.timestamp := by
  have kept : ∀ row : JoinRow Row, evicted ≤ row.timestamp →
      (decide (cutoff ≤ evicted) || decide (cutoff ≤ row.timestamp)) =
        decide (max evicted cutoff ≤ row.timestamp) := by
    intro row after
    rw [Bool.eq_iff_iff, Bool.or_eq_true, decide_eq_true_iff, decide_eq_true_iff,
      decide_eq_true_iff, max_le_iff]
    exact ⟨fun either => ⟨after, either.elim after.trans' id⟩, fun both => .inr both.2⟩
  rw [filter_append, filter_append, filter_filter, filter_filter]
  congr 1
  · refine filter_congr fun row _ => ?_
    by_cases after : evicted ≤ row.timestamp
    · rw [kept row after, decide_eq_true after, Bool.and_true, Bool.and_comm]
    · have before : ¬max evicted cutoff ≤ row.timestamp := fun both => after (max_le_iff.mp both).1
      rw [decide_eq_false after, decide_eq_false before, Bool.and_false, Bool.and_false]
  · refine filter_congr fun row mem => ?_
    cases isKeyed : keyed row with
    | false => rw [Bool.and_false, Bool.false_and]
    | true => rw [kept row (late row mem isKeyed), Bool.and_true, Bool.true_and]

theorem joined_extend {Left Right : Type} {matching : Left → Right → Bool}
    (lefts newLefts : List Left) (rights newRights : List Right) :
    (joined matching (lefts ++ newLefts) (rights ++ newRights)).Perm
      (joined matching lefts rights ++
        (joined matching newLefts (rights ++ newRights) ++ joined matching lefts newRights)) := by
  rw [joined_append_left]
  refine (joined_append_right.append_right _).trans ?_
  rw [append_assoc]
  exact perm_append_comm.append_left _

theorem runCycles_joined (ready : Ready hash config state)
    (leftSupported : config.left.error = none) (rightSupported : config.right.error = none)
    (left : LiveOf state.evictedWatermark seenLeft state.left)
    (right : LiveOf state.evictedWatermark seenRight state.right)
    (spares : Spares config state.evictedWatermark inputs)
    (late : inputs.Pairwise fun earlier later =>
      ∀ timestamp ∈ later.times, earlier.watermark.toInt ≤ timestamp.toInt) :
    ∃ results : List (Pairs Row Other),
      (runCycles hash config state inputs).2 = results.map .ok ∧
      (joined (matching config.boundMs) (seenLeft ++ leftRows inputs)
        (seenRight ++ rightRows inputs)).Perm
          (joined (matching config.boundMs) seenLeft seenRight ++ results.flatten) := by
  induction inputs generalizing state seenLeft seenRight with
  | nil =>
    refine ⟨[], rfl, ?_⟩
    simp only [leftRows, rightRows, flatMap_nil, append_nil, flatten_nil]
    exact .refl _
  | cons input inputs ih =>
    obtain ⟨after, result, isCycle, cycle⟩ := executeCycle_spec ready
      (accepted_of_supported leftSupported input.left)
      (accepted_of_supported rightSupported input.right)
    obtain ⟨lateHere, lateRest⟩ := pairwise_cons.mp late
    have here := spares input mem_cons_self
    have onTime : ∀ timestamp ∈ input.times, state.evictedWatermark ≤ timestamp :=
      fun timestamp isTime => here timestamp isTime timestamp
        (by rw [sub_self, abs_zero]; exact boundMs_nonneg)
    have leftAfter : LiveOf after.evictedWatermark (seenLeft ++ input.left.flatten) after.left := by
      rw [cycle.evicted]
      refine cycle.left.trans (((left.append_right _).filter _).trans (.of_eq ?_))
      exact liveOf_cycle fun row mem isKeyed => onTime _ (times_left mem isKeyed)
    have rightAfter : LiveOf after.evictedWatermark (seenRight ++ input.right.flatten)
        after.right := by
      rw [cycle.evicted]
      refine cycle.right.trans (((right.append_right _).filter _).trans (.of_eq ?_))
      exact liveOf_cycle fun row mem isKeyed => onTime _ (times_right mem isKeyed)
    have sparesAfter : Spares config after.evictedWatermark inputs := by
      rw [cycle.evicted]
      exact spares_max (forall_mem_cons.mp spares).2 lateHere
    obtain ⟨results, isResults, perm⟩ := ih cycle.ready leftAfter rightAfter sparesAfter lateRest
    have isResult : result.Perm
        (joined (matching config.boundMs) input.left.flatten (seenRight ++ input.right.flatten) ++
          joined (matching config.boundMs) seenLeft input.right.flatten) := by
      refine cycle.result.trans (.trans ?_ (cycle_joined
        (fun row mem isKeyed => here _ (times_left mem isKeyed))
        fun row mem isKeyed => here _ (times_right mem isKeyed)))
      exact (joined_perm (.refl _) (right.append_right _)).append (joined_perm left (.refl _))
    refine ⟨result :: results, ?_, ?_⟩
    · simp only [runCycles, isCycle, isResults, map_cons]
    · simp only [leftRows, rightRows, flatMap_cons, flatten_cons]
      simp only [leftRows, rightRows, append_assoc] at perm
      refine perm.trans ?_
      rw [← append_assoc]
      exact ((joined_extend _ _ _ _).trans (isResult.symm.append_left _)).append_right _

end Invariant

/-- The cycles succeed, and together they return each pair of the rows once. -/
def JoinsPairs (hash : JoinKey → UInt64) (config : StreamJoinConfig)
    (inputs : List (JoinInput Row Other)) : Prop :=
  ∃ results : List (Pairs Row Other), (runCycles hash config .new inputs).2 = results.map .ok ∧
    results.flatten.Perm (joined (pairs config) (leftRows inputs) (rightRows inputs))

theorem joinsPairs_of_exact {hash : JoinKey → UInt64} {config : StreamJoinConfig}
    {inputs : List (JoinInput Row Other)} (leftSupported : config.left.error = none)
    (rightSupported : config.right.error = none) (onTime : OnTime inputs)
    (exact : ExactRun config inputs) : JoinsPairs hash config inputs := by
  have leftExact : ∀ input ∈ inputs, ∀ row ∈ input.left.flatten, keyed row = true → Exact row :=
    fun input mem row isRow => exact.left row (mem_flatMap.mpr ⟨input, mem, isRow⟩)
  have rightExact : ∀ input ∈ inputs, ∀ row ∈ input.right.flatten, keyed row = true → Exact row :=
    fun input mem row isRow => exact.right row (mem_flatMap.mpr ⟨input, mem, isRow⟩)
  have late : inputs.Pairwise fun earlier later =>
      ∀ timestamp ∈ later.times, earlier.watermark.toInt ≤ timestamp.toInt := by
    refine onTime.imp_of_mem fun _ mem rowsLate => ?_
    exact le_times (leftExact _ mem) (rightExact _ mem) rowsLate.1 rowsLate.2
  obtain ⟨results, isResults, perm⟩ := @runCycles_joined Row Other hash config .new [] [] inputs
    new_ready leftSupported rightSupported (.refl _) (.refl _)
    (fun _ _ _ _ other _ => I64.le_iff.mpr other.lower) late
  refine ⟨results, isResults, ?_⟩
  have agree := joined_congr fun row isRow other isOther =>
    matching_eq_pairs exact.bound (exact.left row isRow) (exact.right other isOther)
  rw [joined_nil_left, nil_append, nil_append, nil_append, agree] at perm
  exact perm.symm

def ordersPayments : StreamJoinConfig where
  left := { key := ⟨"order_id", some .int64⟩, time := ⟨"ts", some .int64⟩ }
  right := { key := ⟨"order_id", some .int64⟩, time := ⟨"ts", some .timestampMillisecond⟩ }
  timeBound := 1000

def eventRow (order : Int64) (valid : Bool) (timestamp : I64) : JoinRow String where
  key := some (.int64 order)
  time := .int64 valid timestamp
  content := "event"

theorem joinsPairs_ordersPayments :
    JoinsPairs (fun _ => 0) ordersPayments
      [⟨[[eventRow 1 true (.clamp 500)]], [], .clamp 400⟩,
        ⟨[], [[eventRow 1 true (.clamp 900)]], .clamp 5000⟩] := by
  refine joinsPairs_of_exact rfl rfl ?_ ⟨?_, ?_, by decide⟩
  · refine pairwise_pair.mpr ⟨fun row mem => (nomatch mem), ?_⟩
    intro row mem instant isInstant
    rw [mem_singleton.mp mem] at isInstant
    cases isInstant
    norm_cast
  all_goals
    intro row mem _
    rw [mem_singleton.mp mem]
    rfl

/-- An order without a time is joined: the value under the null is read. -/
theorem nullTime_not_joinsPairs :
    ordersPayments.left.error = none ∧ ordersPayments.right.error = none ∧
      OnTime [(⟨[[eventRow 1 false (.clamp 0)]], [[eventRow 1 true (.clamp 0)]], .clamp 0⟩ :
        JoinInput String String)] ∧
      ¬JoinsPairs (fun _ => 0) ordersPayments
        [⟨[[eventRow 1 false (.clamp 0)]], [[eventRow 1 true (.clamp 0)]], .clamp 0⟩] := by
  refine ⟨rfl, rfl, pairwise_singleton _ _, ?_⟩
  rintro ⟨results, isResults, perm⟩
  have returned : (runCycles (fun _ => 0) ordersPayments .new
      [⟨[[eventRow 1 false (.clamp 0)]], [[eventRow 1 true (.clamp 0)]], .clamp 0⟩]).2 =
        [[(eventRow 1 false (.clamp 0), eventRow 1 true (.clamp 0))]].map .ok := rfl
  rw [returned] at isResults
  rw [← map_injective_iff.mpr (fun _ _ same => Except.ok.inj same) isResults] at perm
  exact absurd perm.length_eq (by decide)

/-- The pairs depend neither on the cut into cycles nor on hashes and evictions. -/
theorem pairs_ignore_cut {config : StreamJoinConfig} (leftSupported : config.left.error = none)
    (rightSupported : config.right.error = none) {inputs others : List (JoinInput Row Other)}
    (late : ∀ run ∈ [inputs, others], run.Pairwise fun earlier later =>
      ∀ timestamp ∈ later.times, earlier.watermark.toInt ≤ timestamp.toInt)
    (left : (leftRows inputs).Perm (leftRows others))
    (right : (rightRows inputs).Perm (rightRows others)) (hash rehash : JoinKey → UInt64) :
    ∃ results again : List (Pairs Row Other),
      (runCycles hash config .new inputs).2 = results.map .ok ∧
      (runCycles rehash config .new others).2 = again.map .ok ∧
      results.flatten.Perm again.flatten := by
  have joins (hash) (run) (among : run ∈ [inputs, others]) :=
    @runCycles_joined Row Other hash config .new [] [] run new_ready leftSupported rightSupported
      (.refl _) (.refl _) (fun _ _ _ _ other _ => I64.le_iff.mpr other.lower) (late run among)
  obtain ⟨results, isResults, perm⟩ := joins hash inputs (by simp)
  obtain ⟨again, isAgain, permAgain⟩ := joins rehash others (by simp)
  refine ⟨results, again, isResults, isAgain, perm.symm.trans (.trans ?_ permAgain)⟩
  exact joined_perm left right

theorem pairs_ignore_cut_ordersPayments : ∃ results again : List (Pairs String String),
    (runCycles (fun _ => 0) ordersPayments .new [⟨[[eventRow 1 true (.clamp 5)]], [], .clamp 4⟩,
      ⟨[], [[eventRow 1 true (.clamp 9)]], .clamp 7⟩]).2 = results.map .ok ∧
    (runCycles (fun _ => 7) ordersPayments .new [⟨[[eventRow 1 true (.clamp 5)]],
      [[eventRow 1 true (.clamp 9)]], .clamp 6⟩]).2 = again.map .ok ∧
    results.flatten.Perm again.flatten := by
  refine @pairs_ignore_cut _ _ ordersPayments rfl rfl _ _ ?_ ?_ ?_ _ _
  · decide +kernel
  all_goals exact .refl _

end LaminarDB.Executor.IntervalJoin
