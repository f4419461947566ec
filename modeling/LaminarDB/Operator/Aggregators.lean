import Mathlib

/-!
# Aggregators of the window operators

For an event, an operator adds every value that `extract_batch` gives to the accumulator of the
window. `Sum`, `Min` and `Max` condense the rows of the event into one value, and `Avg` gives
one for each row. `Count` counts the event, whatever its rows, and `First` and `Last` read one
row of it.
-/

namespace LaminarDB.Operator

open List

/-- The rows of an event, and which columns they have as `Int64` arrays. -/
structure Batch where
  isInt64 : Nat → Bool
  rows : List (Nat → Option Int64)

def Batch.values (batch : Batch) (column : Nat) : Option (List Int64) :=
  if batch.isInt64 column then some (batch.rows.filterMap (· column)) else none

structure Aggregator where
  Input : Type
  Acc : Type
  Output : Type
  create : Acc
  add : Acc → Input → Acc
  merge : Acc → Acc → Acc
  result : Acc → Output
  extractBatch : Batch → List Input

/-- The accumulator of `Sum`, and that of `Avg`. -/
structure SumAccumulator where
  sum : Int64
  count : UInt64

namespace SumAccumulator

variable (acc other : SumAccumulator) (value : Int64)

def add : SumAccumulator := ⟨acc.sum + value, acc.count + 1⟩

def merge : SumAccumulator := ⟨acc.sum + other.sum, acc.count + other.count⟩

theorem merge_zero : acc.merge ⟨0, 0⟩ = acc := by
  simp [merge]

theorem merge_add : acc.merge (other.add value) = (acc.merge other).add value := by
  simp [merge, add, Int64.add_assoc, UInt64.add_assoc]

end SumAccumulator

/-- One step of `Iterator::min` or `max`, and of the accumulators of `Min` and `Max`. -/
def best (pick : Int64 → Int64 → Int64) (found : Option Int64) (value : Int64) : Option Int64 :=
  some (found.elim value (pick · value))

def extremumAggregator (pick : Int64 → Int64 → Int64) (column : Nat) : Aggregator where
  Input := Int64
  Acc := Option Int64
  Output := Option Int64
  create := none
  add := best pick
  merge acc other := other.elim acc (best pick acc)
  result := id
  extractBatch batch := ((batch.values column).bind (foldl (best pick) none)).toList

structure ValueAccumulator where
  value : Option Int64
  timestamp : Option Int64

def ValueAccumulator.merge (replaces : Int64 → Int64 → Bool) (acc other : ValueAccumulator) :
    ValueAccumulator :=
  match acc.timestamp, other.timestamp with
  | _, none => acc
  | none, some _ => other
  | some existing, some timestamp => if replaces timestamp existing then other else acc

def valueAggregator (replaces : Int64 → Int64 → Bool) (valueColumn timestampColumn : Nat) :
    Aggregator where
  Input := Int64 × Int64
  Acc := ValueAccumulator
  Output := Option Int64
  create := ⟨none, none⟩
  add acc value := acc.merge replaces ⟨some value.1, some value.2⟩
  merge := .merge replaces
  result := ValueAccumulator.value
  extractBatch batch := Option.toList <|
    ((batch.values valueColumn).bind head?).bind fun value =>
      ((batch.values timestampColumn).bind head?).map fun timestamp => (value, timestamp)

inductive Builtin where
  | count
  | sum (column : Nat)
  | min (column : Nat)
  | max (column : Nat)
  | avg (column : Nat)
  | firstValue (valueColumn timestampColumn : Nat)
  | lastValue (valueColumn timestampColumn : Nat)

def Builtin.aggregator : Builtin → Aggregator
  | .count =>
    { Input := Unit
      Acc := UInt64
      Output := UInt64
      create := 0
      add := fun count _ => count + 1
      merge := (· + ·)
      result := id
      extractBatch := fun _ => [()] }
  | .sum column =>
    { Input := Int64
      Acc := SumAccumulator
      Output := Int64
      create := ⟨0, 0⟩
      add := .add
      merge := .merge
      result := SumAccumulator.sum
      extractBatch := fun batch => ((batch.values column).map (foldl (· + ·) 0)).toList }
  | .min column =>
    extremumAggregator (fun left right => if left ≤ right then left else right) column
  | .max column =>
    extremumAggregator (fun left right => if left ≤ right then right else left) column
  | .avg column =>
    { Input := Int64
      Acc := SumAccumulator
      Output := Option Float
      create := ⟨0, 0⟩
      add := .add
      merge := .merge
      result := fun acc =>
        if acc.count = 0 then none else some (acc.sum.toFloat / acc.count.toFloat)
      extractBatch := fun batch => (batch.values column).getD [] }
  | .firstValue valueColumn timestampColumn =>
    valueAggregator (fun timestamp existing => timestamp < existing) valueColumn timestampColumn
  | .lastValue valueColumn timestampColumn =>
    valueAggregator (fun timestamp existing => existing ≤ timestamp) valueColumn timestampColumn

namespace Aggregator

variable (aggregator : Aggregator)

def feed (acc : aggregator.Acc) (batch : Batch) : aggregator.Acc :=
  (aggregator.extractBatch batch).foldl aggregator.add acc

/-- Each row in an event of its own. -/
def feedRows (acc : aggregator.Acc) (batch : Batch) : aggregator.Acc :=
  batch.rows.foldl (fun acc row => aggregator.feed acc { batch with rows := [row] }) acc

/-- One event with all rows gives the same result as one event for each row. -/
def IgnoresPacking : Prop :=
  ∀ acc batch, aggregator.result (aggregator.feed acc batch) =
    aggregator.result (aggregator.feedRows acc batch)

/-- The accumulators of two parts of the rows merge into that of all rows. -/
def Merges : Prop :=
  ∀ isInt64 first second,
    aggregator.merge (aggregator.feedRows aggregator.create ⟨isInt64, first⟩)
        (aggregator.feedRows aggregator.create ⟨isInt64, second⟩) =
      aggregator.feedRows aggregator.create ⟨isInt64, first ++ second⟩

variable {aggregator}

section

variable (added : ∀ acc other value, aggregator.merge acc (aggregator.add other value) =
  aggregator.add (aggregator.merge acc other) value)

include added

theorem merge_foldl (values : List aggregator.Input) (acc other : aggregator.Acc) :
    aggregator.merge acc (values.foldl aggregator.add other) =
      values.foldl aggregator.add (aggregator.merge acc other) := by
  induction values generalizing other with
  | nil => rfl
  | cons value values ih => rw [foldl_cons, ih, added, foldl_cons]

theorem merges_of_added (created : ∀ acc, aggregator.merge acc aggregator.create = acc) :
    aggregator.Merges := by
  intro isInt64 first second
  unfold feedRows feed
  rw [← foldl_flatMap, ← foldl_flatMap, ← foldl_flatMap, merge_foldl added, created,
    ← foldl_append, flatMap_append]

end

theorem ignoresPacking_of_folds {View : Type} {view : aggregator.Acc → View}
    {step : View → Int64 → View} {column : Nat}
    (shows : ∀ left right, view left = view right →
      aggregator.result left = aggregator.result right)
    (folds : ∀ acc batch, view (aggregator.feed acc batch) =
      ((batch.values column).getD []).foldl step (view acc)) : aggregator.IgnoresPacking := by
  rintro acc ⟨isInt64, rows⟩
  apply shows
  unfold feedRows
  induction rows generalizing acc with
  | nil =>
    rw [folds]
    cases typed : isInt64 column <;> simp [Batch.values, typed]
  | cons row rows ih =>
    rw [foldl_cons, ← ih, folds, folds, folds]
    cases typed : isInt64 column with
    | false => simp [Batch.values, typed]
    | true => cases cell : row column <;> simp [Batch.values, typed, cell]

end Aggregator

open Aggregator

theorem ignoresPacking_sum {column : Nat} : (Builtin.sum column).aggregator.IgnoresPacking := by
  refine @ignoresPacking_of_folds (Builtin.sum column).aggregator _ SumAccumulator.sum (· + ·)
    column (fun _ _ same => same) fun acc batch => ?_
  simp only [feed, Builtin.aggregator]
  cases batch.values column with
  | none => rfl
  | some values =>
    have grouped := @foldl_assoc Int64 (· + ·) _ values acc.sum 0
    rw [Int64.add_zero] at grouped
    exact grouped.symm

theorem extremum_spec {column : Nat} {pick : Int64 → Int64 → Int64}
    (assoc : ∀ first second third, pick first (pick second third) =
      pick (pick first second) third) :
    (extremumAggregator pick column).Merges ∧ (extremumAggregator pick column).IgnoresPacking := by
  have added : ∀ acc other value, (best pick other value).elim acc (best pick acc) =
      best pick (other.elim acc (best pick acc)) value := by
    rintro (_ | acc) (_ | other) value <;> simp [best, assoc]
  refine ⟨merges_of_added added fun _ => rfl, @ignoresPacking_of_folds
    (extremumAggregator pick column) _ id (best pick) column (fun _ _ => congrArg _)
      fun acc batch => ?_⟩
  simp only [feed, extremumAggregator]
  cases batch.values column with
  | none => rfl
  | some values =>
    refine Eq.trans ?_ (@merge_foldl (extremumAggregator pick column) added values acc none)
    show (values.foldl (best pick) none).toList.foldl (best pick) acc =
      (values.foldl (best pick) none).elim acc (best pick acc)
    cases values.foldl (best pick) none <;> rfl

theorem merges_value {replaces : Int64 → Int64 → Bool} {valueColumn timestampColumn : Nat}
    (trans : ∀ first second third, replaces third second = true → replaces second first = true →
      replaces third first = true)
    (split : ∀ first second third, replaces third first = true →
      replaces third second = true ∨ replaces second first = true) :
    (valueAggregator replaces valueColumn timestampColumn).Merges := by
  refine merges_of_added (fun acc other value => ?_) fun acc => ?_
  · obtain ⟨_, _ | first⟩ := acc <;> obtain ⟨_, _ | second⟩ := other <;>
      simp only [valueAggregator, ValueAccumulator.merge]
    all_goals grind
  · obtain ⟨_, _ | timestamp⟩ := acc <;> rfl

/-- Every row of an event counts. -/
def Builtin.readsRows : Builtin → Bool
  | .sum _ | .min _ | .max _ | .avg _ => true
  | .count | .firstValue _ _ | .lastValue _ _ => false

def twice (first second : Int64) : Batch :=
  ⟨fun _ => true, [fun _ => some first, fun _ => some second]⟩

theorem count_depends : ¬Builtin.count.aggregator.IgnoresPacking := by
  intro ignores
  have same : (1 : UInt64) = 2 := ignores (0 : UInt64) (twice 1 1)
  exact absurd same (by decide)

/-- The accumulators of parts can always be merged, and four do not depend on the events. -/
theorem ignoresPacking_iff (builtin : Builtin) :
    builtin.aggregator.Merges ∧
      (builtin.aggregator.IgnoresPacking ↔ builtin.readsRows = true) := by
  cases builtin with
  | sum column =>
    exact ⟨merges_of_added SumAccumulator.merge_add SumAccumulator.merge_zero,
      iff_of_true ignoresPacking_sum rfl⟩
  | avg column =>
    exact ⟨merges_of_added SumAccumulator.merge_add SumAccumulator.merge_zero,
      iff_of_true (@ignoresPacking_of_folds (Builtin.avg column).aggregator _ id SumAccumulator.add
        column (fun _ _ => congrArg _) fun _ _ => rfl) rfl⟩
  | min column | max column =>
    refine (extremum_spec ?_).imp_right fun ignores => iff_of_true ignores rfl
    intro first second third
    simp only [Int64.le_iff_toInt_le]
    split_ifs <;> first | rfl | omega
  | count =>
    exact ⟨@merges_of_added Builtin.count.aggregator (fun acc other _ =>
      (UInt64.add_assoc acc other 1).symm) UInt64.add_zero,
      iff_of_false count_depends Bool.false_ne_true⟩
  | firstValue =>
    refine ⟨?_, iff_of_false (fun ignores => ?_) Bool.false_ne_true⟩
    · apply merges_value <;> simp only [decide_eq_true_eq, Int64.lt_iff_toInt_lt] <;> omega
    · have same : some (2 : Int64) = some 1 := ignores ⟨none, none⟩ (twice 2 1)
      exact absurd same (by decide)
  | lastValue =>
    refine ⟨?_, iff_of_false (fun ignores => ?_) Bool.false_ne_true⟩
    · apply merges_value <;> simp only [decide_eq_true_eq, Int64.le_iff_toInt_le] <;> omega
    · have same : some (1 : Int64) = some 2 := ignores ⟨none, none⟩ (twice 1 2)
      exact absurd same (by decide)

/-- An event of two rows is counted once. -/
theorem not_ignoresPacking_count : ¬Builtin.count.aggregator.IgnoresPacking := count_depends

end LaminarDB.Operator
