import LaminarDB.Executor.Cycle

/-!
# The order filter on the results of a query

`execute_cycle` cuts the results of a query with a top-k order to `k` rows. The same cut
serves the top-k of every group, although it counts the rows of all groups together.
-/

namespace LaminarDB.Executor

open List

/-- A row of a result: the value in each of its columns. -/
abbrev ResultRow (Value : Type) := String → Value

structure PerGroupTopKConfig where
  k : Nat
  partitionColumns : List String

inductive OrderOperatorConfig where
  | sourceSatisfied
  | topK (k : Nat)
  | windowLocalSort
  | watermarkBoundedSort
  | perGroupTopK (config : PerGroupTopKConfig)

section Slices

variable {Row : Type}

/-- The loop over the batches, with the rows that may still be kept. -/
def sliceBatches : Nat → List (List Row) → List (List Row)
  | _, [] => []
  | remaining, batch :: batches =>
    if remaining = 0 then [] else
      let take := min remaining batch.length
      batch.take take :: sliceBatches (remaining - take) batches

variable (batches : List (List Row)) {k : Nat}

def applyTopkFilter (k : Nat) : List (List Row) :=
  if batches.isEmpty || k = 0 then []
  else if (batches.map length).sum ≤ k then batches
  else sliceBatches k batches

def orderFilter (order : Option OrderOperatorConfig) (batches : List (List Row)) :
    List (List Row) :=
  match order with
  | some (.topK k) => applyTopkFilter batches k
  | some (.perGroupTopK config) => applyTopkFilter batches config.k
  | _ => batches

theorem flatten_sliceBatches {remaining : Nat} {batches : List (List Row)} :
    (sliceBatches remaining batches).flatten = batches.flatten.take remaining := by
  induction batches generalizing remaining with
  | nil => rw [sliceBatches, flatten_nil, take_nil]
  | cons batch batches ih =>
    rw [sliceBatches]
    split
    · rename_i none
      rw [none, take_zero, flatten_nil]
    · have left : remaining - min remaining batch.length = remaining - batch.length := by omega
      rw [flatten_cons, flatten_cons, ih, left, take_append, ← take_eq_take_min]

theorem flatten_applyTopkFilter : (applyTopkFilter batches k).flatten = batches.flatten.take k := by
  unfold applyTopkFilter
  split
  · rename_i nothing
    simp only [Bool.or_eq_true, List.isEmpty_iff, decide_eq_true_eq] at nothing
    obtain rfl | rfl := nothing
    · rw [flatten_nil, take_nil]
    · rw [take_zero, flatten_nil]
  · split
    · rename_i within
      exact (take_of_length_le (length_flatten ▸ within)).symm
    · exact flatten_sliceBatches

variable {Group : Type} [DecidableEq Group] {group : Row → Group} {rows : List Row}

/-- A cut keeps the first rows of every group only if nothing is cut off or there is one group. -/
theorem one_group_of_cut (keeps : ∀ value, (rows.take k).filter (group · = value) =
      (rows.filter (group · = value)).take k) (positive : 0 < k)
    (cut : k < rows.length) : ∃ value, ∀ row ∈ rows, group row = value := by
  have size := length_take_of_le cut.le
  have filled : ∀ row ∈ rows.take k, group row = group rows[k] := by
    have counts := congrArg length (keeps (group rows[k]))
    have more : ((rows.take (k + 1)).filter (group · = group rows[k])).length ≤
        (rows.filter (group · = group rows[k])).length :=
      ((take_sublist _ _).filter _).length_le
    rw [take_add_one, getElem?_eq_getElem cut, filter_append, Option.toList_some,
      filter_cons_of_pos (by simp), length_append, length_cons] at more
    rw [length_take] at counts
    have all := length_filter_eq_length_iff.mp (Nat.le_antisymm
      (length_filter_le (group · = group rows[k]) (rows.take k)) (by omega))
    exact fun row mem => of_decide_eq_true (all row mem)
  refine ⟨group rows[k], fun row mem => ?_⟩
  by_contra other
  have counts := congrArg length (keeps (group row))
  have found : 0 < (rows.filter (group · = group row)).length :=
    length_pos_of_mem (mem_filter.mpr ⟨mem, decide_eq_true rfl⟩)
  rw [filter_eq_nil_iff.mpr fun first isFirst => ?_, length_take, length_nil] at counts
  · omega
  · rw [filled first isFirst, decide_eq_true_eq]
    exact fun same => other same.symm

end Slices

variable {Value : Type} [DecidableEq Value]

namespace PerGroupTopKConfig

variable (config : PerGroupTopKConfig)

def partitionOf (row : ResultRow Value) : List Value :=
  config.partitionColumns.map row

/-- The rows of each partition that are kept are its first `k`, or all of them. -/
def KeepsFirst (batches kept : List (List (ResultRow Value))) : Prop :=
  ∀ partition : List Value, kept.flatten.filter (config.partitionOf · = partition) =
    (batches.flatten.filter (config.partitionOf · = partition)).take config.k

theorem keepsFirst_applyTopkFilter {batches : List (List (ResultRow Value))} :
    config.KeepsFirst batches (applyTopkFilter batches config.k) ↔
      config.k = 0 ∨ batches.flatten.length ≤ config.k ∨
        ∃ partition, ∀ row ∈ batches.flatten, config.partitionOf row = partition := by
  unfold KeepsFirst
  rw [flatten_applyTopkFilter]
  constructor
  · intro keeps
    by_cases positive : config.k = 0
    · exact .inl positive
    by_cases cut : batches.flatten.length ≤ config.k
    · exact .inr (.inl cut)
    exact .inr (.inr (one_group_of_cut keeps (by omega) (by omega)))
  · rintro (none | within | ⟨only, one⟩) partition
    · rw [none, take_zero, take_zero, filter_nil]
    · rw [take_of_length_le within, take_of_length_le ((length_filter_le _ _).trans within)]
    · have constant : ∀ some : List (ResultRow Value), some ⊆ batches.flatten →
          some.filter (config.partitionOf · = partition) =
            if only = partition then some else [] := by
        intro some among
        split
        · rename_i same
          exact filter_eq_self.mpr fun row mem => decide_eq_true (same ▸ one row (among mem))
        · rename_i other
          refine filter_eq_nil_iff.mpr fun row mem => ?_
          rwa [one row (among mem), decide_eq_true_eq]
      rw [constant _ (take_subset _ _), constant _ (Subset.refl _)]
      split
      · rfl
      · rw [take_nil]

end PerGroupTopKConfig

variable {State : Nat → Type}

/-- The order configurations of the queries decide the filter of the cycle. -/
def QueryEngine.ordered (engine : QueryEngine State (List (ResultRow Value)))
    (orders : Nat → Option OrderOperatorConfig) : QueryEngine State (List (ResultRow Value)) :=
  { engine with topK := fun idx => orderFilter (orders idx) }

/-- What a cycle keeps of the result of a query with a top-k per group: it is right
exactly if nothing is cut off or all rows are of one partition. -/
theorem executeQuery_keepsFirst_iff (engine : QueryEngine State (List (ResultRow Value)))
    (orders : Nat → Option OrderOperatorConfig) (queries : List StreamQuery)
    (input : CycleInput (List (ResultRow Value))) (idx : Nat) (query : StreamQuery)
    (states : (idx : Nat) → State idx) (results : Tables (List (ResultRow Value)))
    {state : State idx} {batches : List (List (ResultRow Value))} {config : PerGroupTopKConfig}
    (executed : engine.execute idx (states idx) (tablesOf query input.sourceBatches results)
      input.watermark = (state, .ok batches)) (within : engine.overLimit idx state = none)
    (isOrder : orders idx = some (.perGroupTopK config)) :
    ∃ kept, executeQuery (engine.ordered orders) queries input idx query states results =
        (Function.update states idx state, .ok (keepResults query kept results)) ∧
      (config.KeepsFirst batches kept ↔
        config.k = 0 ∨ batches.flatten.length ≤ config.k ∨
          ∃ partition, ∀ row ∈ batches.flatten, config.partitionOf row = partition) := by
  refine ⟨orderFilter (orders idx) batches, ?_, ?_⟩
  · simp only [executeQuery, QueryEngine.ordered, executed, within]
  · rw [isOrder]
    exact config.keepsFirst_applyTopkFilter

/-- Sales of one city, of which the first two have the same amount. -/
def sales : List (List (ResultRow Nat)) :=
  [3, 3, 1].map fun amount => [fun column => if column = "city" then 0 else amount]

theorem executeQuery_keepsFirst_iff_single :
    ∃ kept, (⟨2, ["city"]⟩ : PerGroupTopKConfig).KeepsFirst sales kept :=
  let engine : QueryEngine (fun _ => Unit) (List (ResultRow Nat)) :=
    ⟨fun _ => none, fun _ _ _ _ => ((), .ok sales), fun _ _ => none, fun _ => id⟩
  have ⟨kept, _, right⟩ := executeQuery_keepsFirst_iff engine
    (fun _ => some (.perGroupTopK ⟨2, ["city"]⟩)) [] ⟨.empty, .clamp 0, fun _ => false⟩ 0
    ⟨"top", [], false⟩ (fun _ => ()) .empty rfl rfl rfl
  ⟨kept, right.mpr (.inr (.inr ⟨[0], by decide⟩))⟩

/-- Two cities with one row each: the second city loses its only row. -/
theorem not_keepsFirst_cities :
    ¬(⟨1, ["city"]⟩ : PerGroupTopKConfig).KeepsFirst [[fun _ => 0, fun _ => 1]]
      (orderFilter (some (.perGroupTopK ⟨1, ["city"]⟩)) [[fun _ => 0, fun _ => 1]]) :=
  fun keeps => absurd (congrArg length (keeps [1])) (by decide)

end LaminarDB.Executor
