import LaminarDB.Pipeline.LateFilter

/-!
# Late filtering and the cut into batches

`filter_late_rows` judges a row by the watermark of its whole batch, the rows behind it
included. The rows that are kept do not depend on how a stream is cut into batches
exactly if no row that is on time when it arrives is made late by a row behind it.
-/

namespace LaminarDB.Pipeline

open Library Time List BatchedFilter CallbackState

variable {Data : Type}

namespace WatermarkColumn

variable (column : WatermarkColumn)

def Below (watermark : I64) (row : Row Data) : Prop :=
  .minValue < watermark ∧ ∃ unit value, column.unit? = some unit ∧ row.cell = some value ∧
    value.toInt * unit.nanos < watermark.toInt * 1000000

/-- The row is at most the bound of the generator behind `earlier`. -/
def Within (earlier row : Row Data) : Prop :=
  ∀ unit time, column.unit? = some unit → earlier.cell = some time →
    ∃ value, row.cell = some value ∧
      time.toInt * unit.nanos - column.maxOutOfOrderness.toInt * 1000000 ≤ value.toInt * unit.nanos

structure Orderly (rows : List (Row Data)) : Prop where
  settled : Settled column.late rows
  stamped : ∀ before row behind, rows = before ++ row :: behind →
    (∃ other ∈ before, column.late other row = true) → row.cell ≠ none
  own : ∀ before row behind, rows = before ++ row :: behind → column.late row row = true →
    ∃ other ∈ before, column.Below (column.establishes other) row
  bounded : rows.Pairwise column.Within → ∀ before row behind,
    rows = before ++ row :: behind → onTime column.late (before ++ [row]) row = true

end WatermarkColumn

/-- The late filter of one source treats the rows of a stream as an event-time filter
should, whatever batches they and the rows of other sources come in. -/
structure FiltersStream (columns : List WatermarkColumn) (sourceId : Fin columns.length)
    (rows : List (Row Data)) : Prop where
  batching : ∀ left right : List (Nat × List (Row Data)),
    (ownBatches sourceId left).flatten = rows → (ownBatches sourceId right).flatten = rows →
      (start columns).kept sourceId left = (start columns).kept sourceId right
  dropped : ∀ (messages later : List (Nat × List (Row Data))) (front back : List (Row Data))
    (row : Row Data),
    (ownBatches sourceId (messages ++ (sourceId.val, front ++ row :: back) :: later)).flatten =
      rows →
    row ∉ ((((start columns).run messages).extractWatermark sourceId
      (front ++ row :: back)).filterLateRows sourceId (front ++ row :: back)).getD [] →
    (columns.get sourceId).Below
      ((((start columns).run messages).extractWatermark sourceId front).watermark sourceId) row
  bounded : rows.Pairwise (columns.get sourceId).Within →
    ∀ messages : List (Nat × List (Row Data)), (ownBatches sourceId messages).flatten = rows →
      (start columns).kept sourceId messages = rows

variable {row : Row Data} {column : WatermarkColumn}

namespace WatermarkColumn

theorem below_mono {left right : I64} (ordered : left ≤ right)
    (below : column.Below left row) : column.Below right row := by
  obtain ⟨established, unit, value, isUnit, cell, before⟩ := below
  refine ⟨lt_of_lt_of_le established ordered, unit, value, isUnit, cell, ?_⟩
  have := I64.le_iff.mp ordered
  omega

theorem below_of_lateAt {watermark : I64} (stamped : row.cell ≠ none)
    (isLate : column.lateAt watermark row = true) : column.Below watermark row := by
  obtain ⟨value, cell⟩ := Option.ne_none_iff_exists'.mp stamped
  obtain ⟨unit, isUnit⟩ := unit?_of_lateAt isLate
  obtain ⟨established, before⟩ := (lateAt_eq_true_iff isUnit).mp isLate
  exact ⟨established, unit, value, isUnit, cell,
    TimeUnit.before_of_lt_threshold (before value cell)⟩

theorem below_watermark_iff (rows : List (Row Data)) (row : Row Data) :
    column.Below (column.watermark rows) row ↔
      ∃ other ∈ rows, column.Below (column.establishes other) row :=
  column.at_watermark_iff (fun watermark => column.Below watermark row)
    (fun below => lt_irrefl _ below.1) (fun ordered => below_mono ordered) rows

end WatermarkColumn

section Stream

variable {columns : List WatermarkColumn} (sourceId : Fin columns.length)

theorem seen_source : (start columns).Seen sourceId (columns.get sourceId) ([] : List (Row Data)) :=
  seen_start (by simp)

variable (messages : List (Nat × List (Row Data)))

theorem kept_source :
    (start columns).kept sourceId messages =
      keepFrom (columns.get sourceId).late [] (ownBatches sourceId messages) :=
  (seen_source sourceId).kept messages

theorem mem_filterLateRows {batch : List (Row Data)} (mem : row ∈ batch) :
    row ∈ ((((start columns).run messages).extractWatermark sourceId
        batch).filterLateRows sourceId batch).getD [] ↔
      onTime (columns.get sourceId).late
        ((ownBatches sourceId messages).flatten ++ batch) row = true := by
  have seen := ((seen_source sourceId).run messages).own batch
  rw [seen.filterLateRows, keepBatch, mem_filter]
  exact and_iff_right mem

theorem watermark_source (front : List (Row Data)) :
    (((start columns).run messages).extractWatermark sourceId front).watermark sourceId =
      (columns.get sourceId).watermark ((ownBatches sourceId messages).flatten ++ front) :=
  (((seen_source sourceId).run messages).own front).watermark

variable {sourceId} {rows : List (Row Data)}

theorem settled_iff_batching :
    (∀ left right : List (Nat × List (Row Data)),
      (ownBatches sourceId left).flatten = rows → (ownBatches sourceId right).flatten = rows →
        (start columns).kept sourceId left =
          (start columns).kept sourceId right) ↔ Settled (columns.get sourceId).late rows := by
  rw [← same_iff_settled]
  constructor
  · intro same left right isLeft isRight
    have cuts := same (left.map (Prod.mk sourceId.val)) (right.map (Prod.mk sourceId.val))
      (by rw [ownBatches_map, isLeft]) (by rw [ownBatches_map, isRight])
    rwa [kept_source, kept_source, ownBatches_map, ownBatches_map] at cuts
  · intro same left right isLeft isRight
    rw [kept_source, kept_source]
    exact same _ _ isLeft isRight

theorem WatermarkColumn.Orderly.below (orderly : column.Orderly rows)
    {before behind : List (Row Data)} (isRows : rows = before ++ row :: behind)
    (isLate : onTime column.late (before ++ [row]) row = false) :
    column.Below (column.watermark before) row := by
  rw [column.below_watermark_iff]
  obtain ⟨other, mem, makes⟩ := not_onTime_iff.mp isLate
  rcases mem_append.mp mem with earlier | itself
  · have stamped := orderly.stamped before row behind isRows ⟨other, earlier, makes⟩
    exact ⟨other, earlier, column.below_of_lateAt stamped makes⟩
  · rw [mem_singleton.mp itself] at makes
    exact orderly.own before row behind isRows makes

theorem FiltersStream.of_orderly (orderly : (columns.get sourceId).Orderly rows) :
    FiltersStream columns sourceId rows where
  batching := settled_iff_batching.mpr orderly.settled
  dropped := by
    intro messages later front back row isRows missing
    rw [mem_filterLateRows sourceId messages (by simp), Bool.not_eq_true] at missing
    rw [watermark_source]
    rw [ownBatches_append, ownBatches_cons_own, flatten_append, flatten_cons] at isRows
    have split : rows = ((ownBatches sourceId messages).flatten ++ front) ++ row ::
        (back ++ (ownBatches sourceId later).flatten) := by
      simp [← isRows]
    refine orderly.below split ?_
    cases arrives : onTime (columns.get sourceId).late
        (((ownBatches sourceId messages).flatten ++ front) ++ [row]) row with
    | false => rfl
    | true =>
      have stays := orderly.settled _ _ _ split arrives
      rw [onTime_append, Bool.and_eq_true] at stays
      have whole : (ownBatches sourceId messages).flatten ++ (front ++ row :: back) =
          ((ownBatches sourceId messages).flatten ++ front ++ [row]) ++ back := by simp
      rw [whole, onTime_append, arrives, stays.1] at missing
      exact missing
  bounded := by
    intro within messages isRows
    have noneSeen := isRows.symm
    rw [kept_source, orderly.settled.keepFrom_eq_keepSingly noneSeen,
      ← orderly.settled.filter_eq_keepSingly noneSeen, isRows]
    refine filter_eq_self.mpr fun row mem => ?_
    obtain ⟨before, behind, split⟩ := append_of_mem mem
    rw [orderly.settled.onTime_iff split]
    exact orderly.bounded within before row behind split

theorem WatermarkColumn.Orderly.of_filtersStream (filters : FiltersStream columns sourceId rows) :
    (columns.get sourceId).Orderly rows := by
  have below : ∀ before row behind, rows = before ++ row :: behind →
      onTime (columns.get sourceId).late (before ++ [row]) row = false →
      (columns.get sourceId).Below ((columns.get sourceId).watermark before) row := by
    intro before row behind isRows isLate
    have judged := filters.dropped [(sourceId.val, before)] [(sourceId.val, behind)] [] [] row
      (by simp [ownBatches, isRows])
    rw [watermark_source, mem_filterLateRows sourceId _ (by simp)] at judged
    simp only [ownBatches, filter_cons_of_pos, filter_nil, decide_true, map_cons,
      map_nil, flatten_cons, flatten_nil, append_nil, nil_append] at judged
    exact judged (by rw [isLate]; exact Bool.false_ne_true)
  refine ⟨settled_iff_batching.mp filters.batching, ?_, ?_, ?_⟩
  · rintro before row behind isRows ⟨other, mem, makes⟩ noCell
    obtain ⟨-, -, value, -, cell, -⟩ := below before row behind isRows
      (not_onTime_iff.mpr ⟨other, mem_append_left _ mem, makes⟩)
    cases noCell.symm.trans cell
  · intro before row behind isRows makes
    exact ((columns.get sourceId).below_watermark_iff before row).mp
      (below before row behind isRows (not_onTime_iff.mpr ⟨row, by simp, makes⟩))
  · intro within before row behind isRows
    have whole := filters.bounded within [(sourceId.val, rows)] (by simp [ownBatches])
    rw [kept_source, ownBatches_cons_own, ownBatches_nil] at whole
    simp only [keepFrom, append_nil, keepBatch, nil_append] at whole
    have onTime := filter_eq_self.mp whole row (by simp [isRows])
    have split : rows = (before ++ [row]) ++ behind := by simp [isRows]
    rw [split, onTime_append, Bool.and_eq_true] at onTime
    exact onTime.1

end Stream

def ascendingColumn : WatermarkColumn :=
  .ofSchema "ts" (some (.timestamp .millisecond)) (.clamp 0)

def stampedRow (time : Int) : Row Unit := ⟨some (.clamp time), ()⟩

end LaminarDB.Pipeline
