import LaminarDB.State.GroupedRows

/-!
# The rows of an emitted window

A window that is closed becomes a batch with one row for each of its groups, read column by column
from the engine's arrays.
-/

namespace LaminarDB.State

open Library Result List SlidingWindowAssigner KeyedMap Windows

variable {Acc Input Row Item : Type} {groups : Groups Acc} {watermark start : I64} {index : Nat}
  {engine : Engine Acc Input} {query : WindowQuery Acc Input Row} {left : Windows Acc}
  {batch : RecordBatch} {items : List Item} {key : GroupKey}

/-- The rows of a batch, each with its scalars in the order of the columns. -/
def batchRows (batch : RecordBatch) : List (List ScalarValue) :=
  (range ((batch.head?.map fun column => column.values.length).getD 0)).map fun index =>
    batch.filterMap fun column => column.values[index]?

section

variable {readers : List (Item → ScalarValue)}
  (columns : Forall₂ (fun column reader => column.values = items.map reader) batch readers)

include columns

theorem filterMap_columns (inItems : index < items.length) :
    batch.filterMap (fun column => column.values[index]?) = readers.map (· items[index]) := by
  induction columns with
  | nil => rfl
  | cons isColumn _ ih =>
    rw [filterMap_cons, isColumn, getElem?_map, getElem?_eq_getElem inItems, ih]
    rfl

theorem batchRows_of_columns (someColumn : readers ≠ []) :
    batchRows batch = items.map fun item => readers.map (· item) := by
  have count : (batch.head?.map fun column => column.values.length).getD 0 = items.length := by
    cases columns with
    | nil => exact absurd rfl someColumn
    | cons isFirst _ => simp [isFirst]
  unfold batchRows
  rw [count]
  refine ext_getElem (by simp) fun index inRange _ => ?_
  simp only [getElem_map, getElem_range]
  exact filterMap_columns columns (by simpa using inRange)

end

/-- What is asked of arrays and projections: a column keeps its scalars, up to a cast of
each to the type of the column, a batch keeps its columns, and a projection works row by
row. -/
structure Rendering (engine : Engine Acc Input) (query : WindowQuery Acc Input Row) where
  coerce : DataType → ScalarValue → ScalarValue
  project : List ScalarValue → List ScalarValue
  column : ∀ {label dataType scalars column},
    buildColumn engine label dataType scalars = .ok column →
      column.values = scalars.map (coerce dataType)
  batch : ∀ {types columns batch}, engine.tryNew types columns = .ok batch → batch = columns
  projected : ∀ {batches results}, query.postProjection batches = .ok results →
    results.flatMap batchRows = (batches.flatMap batchRows).map project

def int64Scalar (value : I64) : ScalarValue := .primitive (.int64 (some (.ofInt value.toInt)))

variable {label : String} {sizeMs : I64}

namespace Rendering

variable (rendering : Rendering engine query)

/-- The row of a window and group with these aggregates, before the projection. -/
def windowRow (sizeMs start : I64) (key : GroupKey) (values : List ScalarValue) :
    List ScalarValue :=
  int64Scalar start :: int64Scalar (start.saturatingAdd sizeMs) ::
    (query.groupTypes.zipWith rendering.coerce key ++
      query.aggSpecs.zipWith (fun spec value => rendering.coerce spec.returnType value) values)

def Renders (sizeMs : I64) (entry : (I64 × GroupKey) × List Acc) (row : List ScalarValue) : Prop :=
  ∃ values, Forall₂ (fun acc value => engine.evaluate acc = .ok value) entry.2 values ∧
    row = rendering.windowRow sizeMs entry.1.1 entry.1.2 values

theorem zipIdx_map_getD (change : Source → Item → Item) (fallback : Item) :
    ∀ (sources : List Source) (items before : List Item), sources.length = items.length →
      (sources.zipIdx before.length).map (fun source =>
        change source.1 (((before ++ items)[source.2]?).getD fallback)) =
          sources.zipWith change items
  | [], _, _, _ => by simp
  | source :: sources, [], _, sameLength => by cases sameLength
  | source :: sources, item :: items, before, sameLength => by
      have later := zipIdx_map_getD change fallback sources items (before ++ [item])
        (Nat.succ.inj sameLength)
      rw [length_append, length_singleton, append_assoc, singleton_append] at later
      rw [zipIdx_cons, map_cons, later, zipWith_cons_cons]
      simp

theorem columns_of_collect {sources : List Source} (items : List Item) (typeOf : Source → DataType)
    (scalars : Nat → List ScalarValue) {columns : List Column} (read : Nat → Item → ScalarValue)
    (built : collect (fun source : Source × Nat =>
      buildColumn engine label (typeOf source.1) (scalars source.2)) sources.zipIdx = .ok columns)
    (isRead : ∀ source ∈ sources.zipIdx, scalars source.2 = items.map (read source.2)) :
    Forall₂ (fun column reader => column.values = items.map reader) columns
      (sources.zipIdx.map fun source item =>
        rendering.coerce (typeOf source.1) (read source.2 item)) := by
  rw [collect_eq_ok_iff] at built
  generalize sources.zipIdx = indexed at isRead built
  induction built with
  | nil => exact .nil
  | @cons source column _ _ isColumn _ ih =>
    refine .cons ?_ (ih (forall_mem_cons.mp isRead).2)
    rw [rendering.column isColumn, isRead source mem_cons_self, map_map]
    rfl

theorem filterMap_getElem? (inWidth : index < width) {values : Item → List ScalarValue}
    {fallback : ScalarValue} (wide : ∀ item ∈ items, (values item).length = width) :
    items.filterMap (fun item => (values item)[index]?) =
      items.map fun item => ((values item)[index]?).getD fallback := by
  rw [← filterMap_eq_map]
  refine filterMap_congr fun item mem => ?_
  have inside := wide item mem ▸ inWidth
  simp [getElem?_eq_getElem inside]

theorem emitWindowBatch_rows {batch : Option RecordBatch}
    (sound : Sound engine query.aggSpecs query.groupTypes.length groups)
    (emitted : emitWindowBatch engine query start (start.saturatingAdd sizeMs) groups = .ok batch) :
    Forall₂ (rendering.Renders sizeMs)
      (groups.entries.map fun group => ((start, group.1), group.2))
      (batch.toList.flatMap batchRows) := by
  unfold emitWindowBatch at emitted
  split at emitted
  · rename_i noGroups
    cases emitted
    rw [isEmpty_iff.mp noGroups]
    exact .nil
  · obtain ⟨evaluated, areEvaluated, emitted⟩ := bind_eq_ok emitted
    obtain ⟨groupArrays, areGroups, emitted⟩ := bind_eq_ok emitted
    obtain ⟨aggArrays, areAggs, emitted⟩ := bind_eq_ok emitted
    simp only at emitted
    split at emitted
    · cases emitted
    · rename_i made isMade
      cases emitted
      have all := collect_eq_ok_iff.mp areEvaluated
      have areEntries := map_fst_zip all.length_eq.le
      have areValues := map_snd_zip all.length_eq.ge
      have related := fun item (mem : item ∈ groups.entries.zip evaluated) =>
        And.intro (of_mem_zip mem).1 ((forall₂_iff_zip.mp all).2 mem)
      generalize groups.entries.zip evaluated = items at areEntries areValues related
      have evaluates : ∀ item ∈ items, item.1.1.length = query.groupTypes.length ∧
          item.2.length = query.aggSpecs.length ∧
          Forall₂ (fun acc value => engine.evaluate acc = .ok value) item.1.2 item.2 := by
        intro item mem
        obtain ⟨inEntries, isEvaluated⟩ := related item mem
        obtain ⟨wide, chunks, fed⟩ := sound _ _ (find?_of_mem inEntries)
        have each := (collect_eq_ok_iff.mp isEvaluated).imp fun _ _ evaluate =>
          mapError_eq_ok.mp evaluate
        exact ⟨wide, each.length_eq.symm.trans fed.length_eq.symm, each⟩
      have keyColumns := rendering.columns_of_collect items id (keyColumn groups.keys)
        (fun index item => (item.1.1[index]?).getD (int64Scalar start)) areGroups (by
          intro source mem
          rw [keyColumn, KeyedMap.keys, ← areEntries, map_map, filterMap_map]
          exact filterMap_getElem? (snd_lt_of_mem_zipIdx mem)
            fun item inItems => (evaluates item inItems).1)
      have valueColumns := rendering.columns_of_collect items
        (fun spec : AggFuncSpec Acc Input Row => spec.returnType)
        (fun index => evaluated.filterMap fun scalars => scalars[index]?)
        (fun index item => (item.2[index]?).getD (int64Scalar start)) areAggs (by
          intro source mem
          rw [← areValues, filterMap_map]
          exact filterMap_getElem? (snd_lt_of_mem_zipIdx mem)
            fun item inItems => (evaluates item inItems).2.1)
      have constant : ∀ value : I64, (int64Column
          (groups.entries.map fun _ => value)).values = items.map fun _ => int64Scalar value := by
        intro value
        rw [← areEntries, int64Column, map_map, map_map]
        rfl
      have areRows := batchRows_of_columns (.cons (constant start)
        (.cons (constant (start.saturatingAdd sizeMs)) (rel_append keyColumns valueColumns)))
        (cons_ne_nil _ _)
      rw [Option.toList_some, flatMap_singleton, rendering.batch isMade, areRows, ← areEntries,
        map_map, forall₂_map_left_iff, forall₂_map_right_iff, forall₂_same]
      intro item inItems
      obtain ⟨wideKey, wideValues, each⟩ := evaluates item inItems
      refine ⟨item.2, each, ?_⟩
      have ofKey := zipIdx_map_getD rendering.coerce (int64Scalar start) query.groupTypes item.1.1
        [] wideKey.symm
      have ofValues := zipIdx_map_getD (fun (spec : AggFuncSpec Acc Input Row) value =>
        rendering.coerce spec.returnType value) (int64Scalar start) query.aggSpecs item.2 []
        wideValues.symm
      rw [windowRow, map_cons, map_cons, map_append, map_map, map_map]
      exact congrArg (int64Scalar start :: int64Scalar (start.saturatingAdd sizeMs) :: ·)
        (congrArg₂ (· ++ ·) ofKey ofValues)

end Rendering

variable {entries : List (I64 × Groups Acc)} {batches : List RecordBatch} {windows : Windows Acc}

namespace Windows

def cells (entries : List (I64 × Groups Acc)) : List ((I64 × GroupKey) × List Acc) :=
  entries.flatMap fun entry => entry.2.entries.map fun group => ((entry.1, group.1), group.2)

variable {accs : List Acc}

theorem mem_cells :
    ((start, key), accs) ∈ cells entries ↔
      ∃ groups, (start, groups) ∈ entries ∧ groups.find? key = some accs := by
  constructor
  · intro mem
    obtain ⟨entry, inEntries, inGroups⟩ := mem_flatMap.mp mem
    obtain ⟨group, isGroup, same⟩ := mem_map.mp inGroups
    cases same
    exact ⟨entry.2, inEntries, find?_of_mem isGroup⟩
  · rintro ⟨groups, inEntries, found⟩
    exact mem_flatMap.mpr ⟨(start, groups), inEntries,
      mem_map.mpr ⟨(key, accs), mem_of_find? found, rfl⟩⟩

theorem nodup_cells (unique : (entries.map Prod.fst).Nodup) :
    ((cells entries).map Prod.fst).Nodup := by
  induction entries with
  | nil => exact nodup_nil
  | cons entry entries ih =>
    rw [map_cons, nodup_cons] at unique
    rw [cells, flatMap_cons, map_append, nodup_append']
    refine ⟨?_, ih unique.2, ?_⟩
    · rw [map_map]
      have keys := entry.2.unique
      refine Nodup.of_map Prod.snd ?_
      rwa [map_map]
    · intro name ofEntry ofOthers
      obtain ⟨first, inFirst, rfl⟩ := mem_map.mp ofEntry
      obtain ⟨group, -, rfl⟩ := mem_map.mp inFirst
      obtain ⟨⟨⟨start, key⟩, accs⟩, inOthers, same⟩ := mem_map.mp ofOthers
      obtain ⟨groups, inEntries, -⟩ := mem_cells.mp inOthers
      cases same
      exact unique.1 (mem_map.mpr ⟨_, inEntries, rfl⟩)

theorem mem_closing {watermark : I64} {entry : I64 × Groups Acc} :
    entry ∈ windows.entries.takeWhile
        (fun entry => decide (closesAt query sizeMs entry.1 ≤ watermark)) ↔
      entry ∈ windows.entries ∧ closesAt query sizeMs entry.1 ≤ watermark := by
  constructor
  · intro mem
    refine ⟨(takeWhile_sublist _).mem mem, of_decide_eq_true ?_⟩
    exact all_eq_true.mp all_takeWhile entry mem
  · rintro ⟨mem, closed⟩
    have sorted := pairwise_map.mp windows.sorted
    generalize windows.entries = entries at mem sorted
    induction entries with
    | nil => cases mem
    | cons first rest ih =>
      rw [pairwise_cons] at sorted
      have firstClosed : closesAt query sizeMs first.1 ≤ watermark := by
        rcases mem_cons.mp mem with rfl | inRest
        · exact closed
        · have ordered := (sorted.1 entry inRest).le
          exact (I64.saturatingAdd_mono (I64.saturatingAdd_mono ordered)).trans closed
      rw [takeWhile_cons, if_pos (decide_eq_true firstClosed)]
      rcases mem_cons.mp mem with rfl | inRest
      · exact mem_cons_self
      · exact mem_cons_of_mem _ (ih inRest sorted.2)

theorem closeEach_ok (rendering : Rendering engine query) {closing : List (I64 × Groups Acc)}
    (sound : ∀ entry ∈ closing, Sound engine query.aggSpecs query.groupTypes.length entry.2)
    (closed : closeEach engine query sizeMs windows closing = (left, .ok batches)) :
    Forall₂ (rendering.Renders sizeMs) (cells closing) (batches.flatMap batchRows) ∧
      ∀ entry, entry ∈ left.entries ↔
        entry ∈ windows.entries ∧ ∀ other ∈ closing, entry.1 ≠ other.1 := by
  induction closing generalizing windows batches with
  | nil =>
    cases closed
    exact ⟨.nil, fun entry => by simp⟩
  | cons first closing ih =>
    obtain ⟨start, groups⟩ := first
    simp only [closeEach] at closed
    split at closed
    · cases closed
    · rename_i batch isBatch
      generalize isRest : closeEach engine query sizeMs (windows.erase start) closing = rest
        at closed
      obtain ⟨remaining, later⟩ := rest
      obtain ⟨rfl, isLater⟩ := Prod.mk.inj closed
      obtain ⟨laterBatches, rfl, rfl⟩ := map_eq_ok isLater
      obtain ⟨rows, areLeft⟩ := ih (forall_mem_cons.mp sound).2 isRest
      refine ⟨?_, fun entry => ?_⟩
      · rw [cells, flatMap_cons, flatMap_append]
        exact rel_append (rendering.emitWindowBatch_rows (sound _ mem_cons_self) isBatch) rows
      · rw [areLeft, SortedMap.mem_erase_iff, forall_mem_cons, and_assoc]

theorem groupsOf_updateWindows (untouched : ∀ group ∈ grouped, group.1.1 ≠ start)
    (updated : updateWindows engine query windows grouped = (left, none)) :
    left.groupsOf start = windows.groupsOf start := by
  induction grouped generalizing windows with
  | nil =>
    cases updated
    rfl
  | cons group grouped ih =>
    obtain ⟨groups, -, updated⟩ := updateWindows_cons updated
    rw [ih (forall_mem_cons.mp untouched).2 updated, groupsOf_insert,
      if_neg (Ne.symm (untouched group mem_cons_self))]

end Windows

end LaminarDB.State
