import LaminarDB.Library.Kahn
import LaminarDB.Library.Maps
import LaminarDB.Library.Saturating
import LaminarDB.State.Scalar

/-!
# The cycles of the stream executor

`StreamExecutor::execute_cycle` runs the registered queries in dependency order over the
batches of one cycle. What a query does to its state is left to a `QueryEngine`; the
cycle decides which queries run, on which tables, and what becomes of their results.

The budget is a clock: whether it is found exhausted at a position of the order is part
of the input of the cycle.
-/

namespace LaminarDB.Executor

open Library State

variable {State : Nat → Type} {Batch : Type} {name : String} {query : StreamQuery}

/-- `StreamQuery`: its name, the tables that it reads and the mark of a removed query. -/
structure StreamQuery where
  name : String
  tableRefs : List String
  removed : Bool
deriving DecidableEq

abbrev Tables (Batch : Type) := KeyedMap String (List Batch)

section

variable (queries : List StreamQuery)

def nameToIdx (name : String) : Option Nat :=
  (queries.zipIdx.reverse.find? fun query => query.1.name = name).map Prod.snd

def dependencies (idx : Nat) : List Nat :=
  (((queries[idx]?.map StreamQuery.tableRefs).getD []).filterMap (nameToIdx queries)).filter
    (· ≠ idx)

def computeTopoOrder : List Nat :=
  Kahn.order (dependencies queries) queries.length

def nameAt (idx : Nat) : Option String :=
  queries[idx]?.map StreamQuery.name

/-- The query at `idx` refers to the name of another one, at `dep`. -/
def Reads (idx dep : Nat) : Prop :=
  dep ≠ idx ∧ ∃ query ∈ queries[idx]?, ∃ name ∈ query.tableRefs, nameAt queries dep = some name

def Latest (dep : Nat) : Prop :=
  ∀ later > dep, nameAt queries later ≠ nameAt queries dep

/-- Every query occurs once and, if none reads itself through others, after all that it
reads. -/
def IsTopoOrder (reads : Nat → Nat → Prop) : Prop :=
  (computeTopoOrder queries).Perm (List.range queries.length) ∧
    ((∀ idx, ¬Relation.TransGen reads idx idx) →
      (computeTopoOrder queries).Pairwise fun idx later => ¬reads idx later)

theorem nameToIdx_snoc :
    nameToIdx (queries ++ [query]) name =
      if query.name = name then some queries.length else nameToIdx queries name := by
  simp only [nameToIdx, List.zipIdx_append, List.zipIdx_singleton, List.reverse_append,
    List.reverse_singleton, List.singleton_append, List.find?_cons]
  by_cases named : query.name = name <;> simp [named]

variable {queries}

theorem nameToIdx_eq_some_iff {dep : Nat} :
    nameToIdx queries name = some dep ↔
      nameAt queries dep = some name ∧ ∀ later > dep, nameAt queries later ≠ some name := by
  unfold nameAt
  induction queries using List.reverseRecOn with
  | nil => simp [nameToIdx]
  | append_singleton queries query ih =>
    rw [nameToIdx_snoc]
    by_cases named : query.name = name <;> grind

theorem mem_dependencies_iff {idx dep : Nat} :
    dep ∈ dependencies queries idx ↔ Reads queries idx dep ∧ Latest queries dep := by
  simp only [dependencies, List.mem_filter, List.mem_filterMap, nameToIdx_eq_some_iff, Reads,
    Latest]
  grind

theorem isTopoOrder_latest (queries : List StreamQuery) :
    IsTopoOrder queries fun idx dep => Reads queries idx dep ∧ Latest queries dep := by
  simp only [← mem_dependencies_iff]
  refine ⟨Kahn.order_perm, fun acyclic => Kahn.sorted_order ?_ ?_⟩
  · intro idx _ dep isDep
    obtain ⟨⟨_, _, _, name, _, isName⟩, _⟩ := mem_dependencies_iff.mp isDep
    obtain ⟨target, isTarget, _⟩ := Option.map_eq_some_iff.mp isName
    exact (List.getElem?_eq_some_iff.mp isTarget).1
  · intro idx cycle
    exact acyclic idx (Relation.transGen_swap.mp cycle)

/-- Two queries of the name `a`: the first one reads `c` and is read by `b`. -/
def twice : List StreamQuery :=
  [⟨"a", ["c"], false⟩, ⟨"b", ["a"], false⟩, ⟨"a", [], false⟩, ⟨"c", [], false⟩]

/-- `b` waits for the second `a` only. -/
theorem not_isTopoOrder_twice : ¬IsTopoOrder twice (Reads twice) := by
  intro ⟨_, sorted⟩
  have falls : ∀ idx dep, Reads twice idx dep →
      [1, 2, 0, 0].getD idx 0 > [1, 2, 0, 0].getD dep 0 := by
    rintro idx dep ⟨_, query, isQuery, name, isRef, isName⟩
    match idx with
    | 0 | 1 | 2 | 3 =>
      cases isQuery
      match dep with
      | 0 | 1 | 2 | 3 => revert isRef; cases isName; decide
      | dep + 4 => cases isName
    | idx + 4 => cases isQuery
  have acyclic : ∀ idx, ¬Relation.TransGen (Reads twice) idx idx := fun idx cycle => by
    have less : Relation.TransGen (· > ·) _ _ := cycle.lift _ falls
    rw [Relation.transGen_eq_self] at less
    exact Nat.lt_irrefl _ less
  have isOrder : computeTopoOrder twice = [2, 3, 1, 0] := by decide
  have early : Reads twice 1 0 := ⟨by decide, _, rfl, "a", List.mem_singleton_self _, rfl⟩
  have sorted := isOrder ▸ sorted acyclic
  simp [early] at sorted

end

section

variable (State : Nat → Type)

/-- `StreamExecutor`, with the states of its queries. -/
structure StreamExecutor where
  queries : List StreamQuery
  states : (idx : Nat) → State idx
  topoOrder : List Nat
  topoDirty : Bool
  skippedLastCycle : List Nat
  ordered : topoDirty = false → topoOrder = computeTopoOrder queries

variable (Batch : Type)

/-- What the queries do. A query may change its state even if it fails. -/
structure QueryEngine where
  /-- `register_source_tables`. -/
  register : Tables Batch → Option DbError
  execute : (idx : Nat) → State idx → List (String × List Batch) → I64 →
    State idx × Except DbError (List Batch)
  /-- The check of the state's size. -/
  overLimit : (idx : Nat) → State idx → Option DbError
  topK : Nat → List Batch → List Batch

structure CycleInput where
  sourceBatches : Tables Batch
  watermark : I64
  exhausted : Nat → Bool

/-- The outcome of a cycle, with the queries that were executed and those that were
skipped. -/
structure CycleOutcome where
  states : (idx : Nat) → State idx
  results : Except DbError (Tables Batch)
  executed : List Nat
  skipped : List Nat

end

/-- The tables of a query: the batches of a source, or else the results of a query. -/
def tablesOf (query : StreamQuery) (sourceBatches results : Tables Batch) :
    List (String × List Batch) :=
  query.tableRefs.map fun name =>
    (name, ((sourceBatches.find? name).or (results.find? name)).getD [])

def dependsOnStream (queries : List StreamQuery) (query : StreamQuery) : Bool :=
  query.tableRefs.any fun name => queries.any fun other => other.name = name

def CycleOutcome.after (idx : Nat) (outcome : CycleOutcome State Batch) :
    CycleOutcome State Batch :=
  { outcome with executed := idx :: outcome.executed }

def keepResults (query : StreamQuery) (batches : List Batch) (results : Tables Batch) :
    Tables Batch :=
  if batches.isEmpty then results else results.insert query.name batches

/-- The states and results after a query, or the error that ends the cycle. A query that reads
another one may fail without ending it. -/
def executeQuery (engine : QueryEngine State Batch) (queries : List StreamQuery)
    (input : CycleInput Batch) (idx : Nat) (query : StreamQuery)
    (states : (idx : Nat) → State idx) (results : Tables Batch) :
    ((idx : Nat) → State idx) × Except DbError (Tables Batch) :=
  let (state, result) := engine.execute idx (states idx)
    (tablesOf query input.sourceBatches results) input.watermark
  (Function.update states idx state,
    match result with
    | .error error => if dependsOnStream queries query then .ok results else .error error
    | .ok batches =>
      match engine.overLimit idx state with
      | some error => .error error
      | none => .ok (keepResults query (engine.topK idx batches) results))

def executeFrom (engine : QueryEngine State Batch) (queries : List StreamQuery)
    (input : CycleInput Batch) :
    Nat → List Nat → ((idx : Nat) → State idx) → Tables Batch → CycleOutcome State Batch
  | _, [], states, results => ⟨states, .ok results, [], []⟩
  | position, idx :: rest, states, results =>
    match queries[idx]? with
    | none => executeFrom engine queries input (position + 1) rest states results
    | some query =>
      if query.removed then
        executeFrom engine queries input (position + 1) rest states results
      else if 0 < position && input.exhausted position then
        ⟨states, .ok results, [], idx :: rest⟩
      else
        match executeQuery engine queries input idx query states results with
        | (states, .error error) => ⟨states, .error error, [idx], []⟩
        | (states, .ok results) =>
          (executeFrom engine queries input (position + 1) rest states results).after idx

/-- The batches of a source that a query is given, once for each time it is executed. -/
def handed (input : CycleInput Batch) (source : String) (idx : Nat) (executed : List Nat) :
    List Batch :=
  (executed.filter (· = idx)).flatMap fun _ => (input.sourceBatches.find? source).getD []

namespace StreamExecutor

variable (executor : StreamExecutor State)

def cycleOrder : List Nat :=
  if executor.topoDirty then computeTopoOrder executor.queries else executor.topoOrder

def outcome (engine : QueryEngine State Batch) (executor : StreamExecutor State)
    (input : CycleInput Batch) : CycleOutcome State Batch :=
  match engine.register input.sourceBatches with
  | some error => ⟨executor.states, .error error, [], executor.skippedLastCycle⟩
  | none =>
    executeFrom engine executor.queries input 0 executor.cycleOrder executor.states .empty

theorem cycleOrder_eq : executor.cycleOrder = computeTopoOrder executor.queries := by
  unfold cycleOrder
  split
  · rfl
  · rename_i clean
    exact executor.ordered (Bool.eq_false_iff.mpr clean)

/-- `execute_cycle`; its results are those of the outcome. -/
def executeCycle (engine : QueryEngine State Batch) (executor : StreamExecutor State)
    (input : CycleInput Batch) : StreamExecutor State where
  queries := executor.queries
  states := (executor.outcome engine input).states
  topoOrder := executor.cycleOrder
  topoDirty := false
  skippedLastCycle := (executor.outcome engine input).skipped
  ordered := fun _ => executor.cycleOrder_eq

def run (engine : QueryEngine State Batch) (executor : StreamExecutor State)
    (inputs : List (CycleInput Batch)) : StreamExecutor State :=
  inputs.foldl (executeCycle engine) executor

def delivered (engine : QueryEngine State Batch) (idx : Nat) (source : String)
    (executor : StreamExecutor State) : List (CycleInput Batch) → List Batch
  | [] => []
  | input :: inputs =>
    handed input source idx (executor.outcome engine input).executed ++
      delivered engine idx source (executor.executeCycle engine input) inputs

end StreamExecutor

def passed (source : String) (inputs : List (CycleInput Batch)) : List Batch :=
  inputs.flatMap fun input => (input.sourceBatches.find? source).getD []

def CycleInput.unhurried (input : CycleInput Batch) : CycleInput Batch :=
  { input with exhausted := fun _ => false }

def Live (queries : List StreamQuery) (idx : Nat) (query : StreamQuery) : Prop :=
  queries[idx]? = some query ∧ query.removed = false

section Turn

variable {engine : QueryEngine State Batch} {queries : List StreamQuery} {input : CycleInput Batch}
  {idx position : Nat} {rest : List Nat} {states : (idx : Nat) → State idx} {results : Tables Batch}

theorem executeFrom_of_dead (dead : ∀ query, ¬Live queries idx query) :
    executeFrom engine queries input position (idx :: rest) states results =
      executeFrom engine queries input (position + 1) rest states results := by
  rw [executeFrom]
  split
  · rfl
  · rename_i query found
    rw [if_pos]
    exact Bool.eq_true_of_not_eq_false fun kept => dead query ⟨found, kept⟩

theorem executeFrom_of_exhausted (live : Live queries idx query)
    (exhausted : (0 < position && input.exhausted position) = true) :
    executeFrom engine queries input position (idx :: rest) states results =
      ⟨states, .ok results, [], idx :: rest⟩ := by
  rw [executeFrom, live.1]
  simp only [live.2, exhausted, Bool.false_eq_true, if_false, if_true]

theorem executeFrom_of_live (live : Live queries idx query)
    (lasts : (0 < position && input.exhausted position) = false) :
    executeFrom engine queries input position (idx :: rest) states results =
      match executeQuery engine queries input idx query states results with
      | (states, .error error) => ⟨states, .error error, [idx], []⟩
      | (states, .ok results) =>
        (executeFrom engine queries input (position + 1) rest states results).after idx := by
  rw [executeFrom, live.1]
  simp only [live.2, lasts, Bool.false_eq_true, if_false]

section

variable {left : Tables Batch}
  (isLeft : (executeQuery engine queries input idx query states results).2 = .ok left)

include isLeft

theorem executeQuery_ok :
    left = results ∨ ∃ batches, (engine.execute idx (states idx)
        (tablesOf query input.sourceBatches results) input.watermark).2 = .ok batches ∧
      left = keepResults query (engine.topK idx batches) results := by
  simp only [executeQuery] at isLeft
  split at isLeft
  · split at isLeft <;> cases isLeft
    exact .inl rfl
  · rename_i batches isOk
    split at isLeft <;> cases isLeft
    exact .inr ⟨batches, isOk, rfl⟩

theorem find?_executeQuery (differs : name ≠ query.name) : left.find? name = results.find? name :=
    by
  rcases executeQuery_ok isLeft with rfl | ⟨batches, -, rfl⟩
  · rfl
  · unfold keepResults
    split
    · rfl
    · rw [KeyedMap.find?_insert, if_neg differs]

end

end Turn

end LaminarDB.Executor
