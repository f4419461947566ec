import LaminarDB.Executor.Cycle
import LaminarDB.State.Aggregate

/-!
# Queries that the budget skips

A query that is skipped is not given the batches of its cycle later: the next cycle has
only its own. A skip loses nothing if the skipped queries had nothing to do.
-/

namespace LaminarDB.Executor

open Library State List CycleInput

variable {State : Nat → Type} {Batch : Type}

/-- The queries from the first position on at which the budget is found exhausted. -/
def skippedFrom (queries : List StreamQuery) (exhausted : Nat → Bool) :
    Nat → List Nat → List Nat
  | _, [] => []
  | position, idx :: rest =>
    match queries[idx]? with
    | none => skippedFrom queries exhausted (position + 1) rest
    | some query =>
      if query.removed then skippedFrom queries exhausted (position + 1) rest
      else if 0 < position && exhausted position then idx :: rest
      else skippedFrom queries exhausted (position + 1) rest

variable (engine : QueryEngine State Batch)

structure QueryEngine.Succeeds : Prop where
  register : ∀ tables, engine.register tables = none
  execute : ∀ idx state tables watermark,
    ∃ batches, (engine.execute idx state tables watermark).2 = .ok batches
  overLimit : ∀ idx state, engine.overLimit idx state = none

/-- The query has nothing to do in the cycle: what it reads has no batch for it, executing it on
nothing leaves its state as it is, and what it then returns, if another query reads it, is empty. -/
structure Idle (queries : List StreamQuery)
    (states : (idx : Nat) → State idx) (input : CycleInput Batch) (skipped : List Nat)
    (idx : Nat) (query : StreamQuery) : Prop where
  batches : ∀ name ∈ query.tableRefs, (input.sourceBatches.find? name).getD [] = []
  upstream : ∀ other otherQuery, Live queries other otherQuery →
    otherQuery.name ∈ query.tableRefs → other ∈ skipped
  quiet : (engine.execute idx (states idx)
    (query.tableRefs.map fun name => (name, [])) input.watermark).1 = states idx
  silent : (∃ reader readerQuery, Live queries reader readerQuery ∧
      query.name ∈ readerQuery.tableRefs) →
    ∀ batches, (engine.execute idx (states idx)
      (query.tableRefs.map fun name => (name, [])) input.watermark).2 = .ok batches →
        engine.topK idx batches = []

namespace StreamExecutor

/-- A run of cycles loses no input to the budget: every query is given the batches of the run in
which the budget lasts, each once if no query fails, and has the state of that run. -/
structure LosesNothing (engine : QueryEngine State Batch) (executor : StreamExecutor State)
    (inputs : List (CycleInput Batch)) : Prop where
  delivered : engine.Succeeds → ∀ idx query source, Live executor.queries idx query →
    source ∈ query.tableRefs → executor.delivered engine idx source inputs = passed source inputs
  alike : ∀ idx query source, Live executor.queries idx query → source ∈ query.tableRefs →
    executor.delivered engine idx source inputs =
      executor.delivered engine idx source (inputs.map unhurried)
  states : (executor.run engine inputs).states = (executor.run engine (inputs.map unhurried)).states

def Spares (engine : QueryEngine State Batch) (executor : StreamExecutor State)
    (input : CycleInput Batch) : Prop :=
  ∀ idx query, Live executor.queries idx query →
    idx ∈ skippedFrom executor.queries input.exhausted 0 executor.cycleOrder →
      Idle engine executor.queries executor.states input
        (skippedFrom executor.queries input.exhausted 0 executor.cycleOrder) idx query

def SparesAll (engine : QueryEngine State Batch) : StreamExecutor State →
    List (CycleInput Batch) → Prop
  | _, [] => True
  | executor, input :: inputs =>
    executor.Spares engine input ∧ SparesAll engine (executor.executeCycle engine input) inputs

end StreamExecutor

variable {source : String} {engine : QueryEngine State Batch} {query : StreamQuery} {idx : Nat}
  {queries : List StreamQuery} {input : CycleInput Batch}

theorem live_or_dead (queries : List StreamQuery) (idx : Nat) :
    (∃ query, Live queries idx query) ∨ ∀ query, ¬Live queries idx query :=
  (em _).imp_right not_exists.mp

section Loop

variable {position : Nat} {order : List Nat} {states : (idx : Nat) → State idx}
  {results : Tables Batch}

theorem mem_executed {other : Nat}
    (executed : other ∈ (executeFrom engine queries input position order states results).executed) :
    other ∈ order := by
  induction order generalizing position states results with
  | nil => cases executed
  | cons idx rest ih =>
    rcases live_or_dead queries idx with ⟨query, live⟩ | dead
    · cases lasts : (0 < position && input.exhausted position) with
      | true =>
        rw [executeFrom_of_exhausted live lasts] at executed
        cases executed
      | false =>
        rw [executeFrom_of_live live lasts] at executed
        split at executed
        · rw [mem_singleton.mp executed]
          exact mem_cons_self
        · rcases mem_cons.mp executed with rfl | later
          · exact mem_cons_self
          · exact mem_cons_of_mem _ (ih later)
    · rw [executeFrom_of_dead dead] at executed
      exact mem_cons_of_mem _ (ih executed)

theorem executed_of_succeeds (succeeds : engine.Succeeds)
    (lasts : ∀ position, input.exhausted position = false) (live : Live queries idx query) :
    (executeFrom engine queries input position order states results).executed.filter (· = idx) =
      order.filter (· = idx) := by
  induction order generalizing position states results with
  | nil => rfl
  | cons other rest ih =>
    rcases live_or_dead queries other with ⟨otherQuery, isLive⟩ | dead
    · obtain ⟨batches, isOk⟩ := succeeds.execute other (states other)
        (tablesOf otherQuery input.sourceBatches results) input.watermark
      have isLeft : (executeQuery engine queries input other otherQuery states results).2 =
          .ok (keepResults otherQuery (engine.topK other batches) results) := by
        simp only [executeQuery, isOk, succeeds.overLimit]
      rw [executeFrom_of_live isLive (by simp [lasts])]
      split
      · rename_i isError
        rw [isError] at isLeft
        cases isLeft
      · simp only [CycleOutcome.after, filter_cons, ih]
    · have differs : other ≠ idx := by
        rintro rfl
        exact dead query live
      rw [executeFrom_of_dead dead, ih, filter_cons_of_neg (by simpa using differs)]

variable {skipped : List Nat}

theorem Idle.of_state {states others : (idx : Nat) → State idx}
    (idle : Idle engine queries states input skipped idx query)
    (same : others idx = states idx) : Idle engine queries others input skipped idx query :=
  { idle with quiet := by rw [same, idle.quiet], silent := by rw [same]; exact idle.silent }

theorem tablesOf_idle (idle : Idle engine queries states input skipped idx query)
    (noResults : ∀ name ∈ query.tableRefs, results.find? name = none) :
    tablesOf query input.sourceBatches results = query.tableRefs.map fun name => (name, []) := by
  refine map_congr_left fun name mem => ?_
  rw [noResults name mem, Option.or_none, idle.batches name mem]

theorem executeFrom_idle (lasts : ∀ position, input.exhausted position = false)
    (idle : ∀ idx ∈ order, ∀ query, Live queries idx query →
      Idle engine queries states input skipped idx query)
    (noResults : ∀ idx ∈ order, ∀ query, Live queries idx query →
      ∀ name ∈ query.tableRefs, results.find? name = none) :
    (executeFrom engine queries input position order states results).states = states := by
  induction order generalizing position results with
  | nil => rfl
  | cons idx rest ih =>
    have restIdle := fun other mem => idle other (mem_cons_of_mem idx mem)
    have restNone := fun other mem => noResults other (mem_cons_of_mem idx mem)
    rcases live_or_dead queries idx with ⟨query, live⟩ | dead
    · have isIdle := idle idx mem_cons_self query live
      have tables := tablesOf_idle isIdle (noResults idx mem_cons_self query live)
      have unchanged : (executeQuery engine queries input idx query states results).1 = states := by
        simp only [executeQuery, tables, isIdle.quiet, Function.update_eq_self]
      rw [executeFrom_of_live live (by simp [lasts])]
      split
      · rename_i isTurn
        rw [isTurn] at unchanged
        exact unchanged
      · rename_i left isTurn
        rw [isTurn] at unchanged
        cases unchanged
        refine ih restIdle ?_
        intro other mem otherQuery otherLive name isRead
        have before := restNone other mem otherQuery otherLive name isRead
        by_cases same : name = query.name
        · subst same
          have silent := isIdle.silent ⟨other, otherQuery, otherLive, isRead⟩
          rcases executeQuery_ok (congrArg Prod.snd isTurn) with rfl | ⟨batches, isOk, rfl⟩
          · exact before
          · rw [tables] at isOk
            rw [silent batches isOk]
            exact before
        · rw [find?_executeQuery (congrArg Prod.snd isTurn) same, before]
    · rw [executeFrom_of_dead dead]
      exact ih restIdle restNone

variable {exhausted : Nat → Bool} {position : Nat} {rest : List Nat}

theorem skippedFrom_of_dead (dead : ∀ query, ¬Live queries idx query) :
    skippedFrom queries exhausted position (idx :: rest) =
      skippedFrom queries exhausted (position + 1) rest := by
  rw [skippedFrom]
  split
  · rfl
  · rename_i query found
    rw [if_pos]
    exact Bool.eq_true_of_not_eq_false fun kept => dead query ⟨found, kept⟩

theorem skippedFrom_of_live (live : Live queries idx query) :
    skippedFrom queries exhausted position (idx :: rest) =
      if 0 < position && exhausted position then idx :: rest
      else skippedFrom queries exhausted (position + 1) rest := by
  rw [skippedFrom, live.1]
  simp only [live.2, Bool.false_eq_true, if_false]

theorem mem_of_mem_skippedFrom
    (skipped : idx ∈ skippedFrom queries exhausted position order) : idx ∈ order := by
  induction order generalizing position with
  | nil => cases skipped
  | cons other rest ih =>
    rcases live_or_dead queries other with ⟨query, live⟩ | dead
    · rw [skippedFrom_of_live live] at skipped
      split at skipped
      · exact skipped
      · exact mem_cons_of_mem _ (ih skipped)
    · rw [skippedFrom_of_dead dead] at skipped
      exact mem_cons_of_mem _ (ih skipped)

theorem handed_of_empty (noBatches : (input.sourceBatches.find? source).getD [] = [])
    (executed : List Nat) : handed input source idx executed = [] := by
  unfold handed
  rw [noBatches]
  simp

theorem executeFrom_unhurried (distinct : order.Nodup) (idle : ∀ idx query, Live queries idx query →
      idx ∈ skippedFrom queries input.exhausted position order →
      Idle engine queries states input (skippedFrom queries input.exhausted position order)
        idx query) (noResults : ∀ idx query, Live queries idx query →
      idx ∈ skippedFrom queries input.exhausted position order →
      ∀ name ∈ query.tableRefs, results.find? name = none) :
    (executeFrom engine queries input position order states results).states =
        (executeFrom engine queries input.unhurried position order states results).states ∧
      ∀ idx query source, Live queries idx query → source ∈ query.tableRefs →
        handed input source idx
            (executeFrom engine queries input position order states results).executed =
          handed input source idx
            (executeFrom engine queries input.unhurried position order states
              results).executed := by
  induction order generalizing position states results with
  | nil => exact ⟨rfl, fun _ _ _ _ _ => rfl⟩
  | cons idx rest ih =>
    rcases live_or_dead queries idx with ⟨query, live⟩ | dead
    · rw [skippedFrom_of_live live] at idle noResults
      cases lasts : (0 < position && input.exhausted position) with
      | true =>
        simp only [lasts, if_true] at idle noResults
        rw [executeFrom_of_exhausted live lasts]
        have unchanged := @executeFrom_idle State Batch engine queries input.unhurried
          position (idx :: rest) states results (idx :: rest) (fun _ => rfl)
          (fun other mem otherQuery otherLive => { idle other otherQuery otherLive mem with })
          (fun other mem otherQuery otherLive => noResults other otherQuery otherLive mem)
        refine ⟨unchanged.symm, fun other otherQuery source otherLive isRead => ?_⟩
        by_cases skipped : other ∈ idx :: rest
        · have noBatches := (idle other otherQuery otherLive skipped).batches source isRead
          rw [handed_of_empty noBatches, handed_of_empty noBatches]
        · have notExecuted : (executeFrom engine queries input.unhurried position (idx :: rest)
              states results).executed.filter (· = other) = [] := by
            refine filter_eq_nil_iff.mpr fun executed mem => ?_
            intro same
            exact skipped (of_decide_eq_true same ▸ mem_executed mem)
          unfold handed
          rw [notExecuted]
          rfl
      | false =>
        simp only [lasts, Bool.false_eq_true, if_false] at idle noResults
        have sameTurn : executeQuery engine queries input.unhurried idx query states results =
            executeQuery engine queries input idx query states results := rfl
        rw [executeFrom_of_live live lasts,
          executeFrom_of_live live (by simp [unhurried]), sameTurn]
        cases isTurn : executeQuery engine queries input idx query states results with
        | mk after result =>
          cases result with
          | error error => exact ⟨rfl, fun _ _ _ _ _ => rfl⟩
          | ok left =>
            have others {other : Nat} (mem : other ∈ skippedFrom queries
                input.exhausted (position + 1) rest) : other ≠ idx := by
              rintro rfl
              exact (nodup_cons.mp distinct).1 (mem_of_mem_skippedFrom mem)
            have unmoved {other : Nat} (mem : other ∈ skippedFrom queries
                input.exhausted (position + 1) rest) : after other = states other := by
              rw [show after = _ from (congrArg Prod.fst isTurn).symm]
              exact Function.update_of_ne (others mem) _ _
            obtain ⟨sameStates, sameBatches⟩ := ih distinct.of_cons
              (fun other otherQuery otherLive mem =>
                (idle other otherQuery otherLive mem).of_state (unmoved mem))
              (fun other otherQuery otherLive mem name isRead => by
                have differs : name ≠ query.name := by
                  rintro rfl
                  exact others ((idle other otherQuery otherLive mem).upstream idx
                    query live isRead) rfl
                rw [find?_executeQuery (congrArg Prod.snd isTurn) differs]
                exact noResults other otherQuery otherLive mem name isRead)
            refine ⟨sameStates, fun other otherQuery source otherLive isRead => ?_⟩
            have rest := sameBatches other otherQuery source otherLive isRead
            unfold handed at rest ⊢
            simp only [CycleOutcome.after, filter_cons]
            split
            · rw [flatMap_cons, flatMap_cons, rest]
            · exact rest
    · rw [skippedFrom_of_dead dead] at idle noResults
      rw [executeFrom_of_dead dead, executeFrom_of_dead dead]
      exact ih distinct.of_cons idle noResults

end Loop

theorem computeTopoOrder_perm : (computeTopoOrder queries).Perm (range queries.length) :=
  Kahn.order_perm

variable {executor : StreamExecutor State} {inputs : List (CycleInput Batch)}

namespace StreamExecutor

structure Alike (left right : StreamExecutor State) : Prop where
  queries : left.queries = right.queries
  states : left.states = right.states

theorem nodup_cycleOrder (executor : StreamExecutor State) : executor.cycleOrder.Nodup := by
  rw [cycleOrder_eq]
  exact computeTopoOrder_perm.nodup_iff.mpr nodup_range

variable {left right : StreamExecutor State}

theorem Alike.outcome (alike : Alike left right)
    (engine : QueryEngine State Batch) (input : CycleInput Batch) :
    (left.outcome engine input).states = (right.outcome engine input).states ∧
      (left.outcome engine input).executed = (right.outcome engine input).executed := by
  unfold StreamExecutor.outcome
  rw [cycleOrder_eq, cycleOrder_eq, alike.queries, alike.states]
  cases engine.register input.sourceBatches with
  | none | some => exact ⟨rfl, rfl⟩

theorem Spares.outcome (spares : executor.Spares engine input) :
    (executor.outcome engine input).states = (executor.outcome engine input.unhurried).states ∧
      ∀ idx query source, Live executor.queries idx query → source ∈ query.tableRefs →
        handed input source idx (executor.outcome engine input).executed =
          handed input source idx (executor.outcome engine input.unhurried).executed := by
  unfold StreamExecutor.outcome
  simp only [unhurried]
  cases engine.register input.sourceBatches with
  | none =>
    exact executeFrom_unhurried executor.nodup_cycleOrder spares fun _ _ _ _ _ _ =>
      KeyedMap.find?_empty
  | some error => exact ⟨rfl, fun _ _ _ _ _ => rfl⟩

theorem SparesAll.run (spares : SparesAll engine left inputs) (alike : Alike left right) :
    (left.run engine inputs).states = (right.run engine (inputs.map unhurried)).states ∧
      ∀ idx query source, Live left.queries idx query → source ∈ query.tableRefs →
        left.delivered engine idx source inputs =
          right.delivered engine idx source (inputs.map unhurried) := by
  induction inputs generalizing left right with
  | nil => exact ⟨alike.states, fun _ _ _ _ _ => rfl⟩
  | cons input inputs ih =>
    obtain ⟨sparesFirst, sparesRest⟩ := spares
    obtain ⟨sameStates, sameBatches⟩ := sparesFirst.outcome
    have unhurried := alike.outcome engine input.unhurried
    have next : Alike (left.executeCycle engine input)
        (right.executeCycle engine input.unhurried) :=
      ⟨alike.queries, sameStates.trans unhurried.1⟩
    obtain ⟨finalStates, restBatches⟩ := ih sparesRest next
    refine ⟨finalStates, fun idx query source live isRead => ?_⟩
    simp only [map_cons, delivered]
    rw [sameBatches idx query source live isRead, unhurried.2,
      restBatches idx query source live isRead]
    rfl

theorem delivered_unhurried (succeeds : engine.Succeeds) (live : Live executor.queries idx query) :
    executor.delivered engine idx source (inputs.map unhurried) = passed source inputs := by
  induction inputs generalizing executor with
  | nil => rfl
  | cons input inputs ih =>
    have once : executor.cycleOrder.filter (· = idx) = [idx] := by
      have inside := (List.getElem?_eq_some_iff.mp live.1).1
      rw [filter_eq, cycleOrder_eq, computeTopoOrder_perm.count_eq,
        count_eq_one_of_mem nodup_range (mem_range.mpr inside)]
      rfl
    have executed : (executor.outcome engine input.unhurried).executed.filter (· = idx) =
        [idx] := by
      unfold outcome
      rw [succeeds.register]
      rw [← once]
      exact executed_of_succeeds succeeds (fun _ => rfl) live
    simp only [map_cons, delivered, handed, executed, passed, flatMap_cons]
    rw [flatMap_nil, append_nil]
    exact congrArg _ (ih live)

theorem spares_unhurried : executor.Spares engine input.unhurried := by
  have noneSkipped : ∀ position order,
      skippedFrom executor.queries input.unhurried.exhausted position order = [] := by
    intro position order
    induction order generalizing position with
    | nil => rfl
    | cons idx rest ih =>
      rcases live_or_dead executor.queries idx with ⟨query, live⟩ | dead
      · rw [skippedFrom_of_live live, if_neg (by simp [unhurried])]
        exact ih (position + 1)
      · rw [skippedFrom_of_dead dead]
        exact ih (position + 1)
  intro idx query live skipped
  rw [noneSkipped] at skipped
  cases skipped

theorem SparesAll.append
    (spares : SparesAll engine executor inputs) (further : List (CycleInput Batch)) :
    SparesAll engine executor (inputs ++ further.map unhurried) := by
  induction inputs generalizing executor with
  | nil =>
    clear spares
    induction further generalizing executor with
    | nil => trivial
    | cons input further ih =>
      exact ⟨spares_unhurried, ih⟩
  | cons input inputs ih =>
    exact ⟨spares.1, ih spares.2⟩

theorem SparesAll.losesNothing
    (spares : SparesAll engine executor inputs) : executor.LosesNothing engine inputs := by
  obtain ⟨sameStates, sameBatches⟩ := spares.run ⟨rfl, rfl⟩
  refine ⟨fun succeeds idx query source live isRead => ?_, sameBatches, sameStates⟩
  rw [sameBatches idx query source live isRead, delivered_unhurried succeeds live]

variable (engine executor inputs) in
/-- After enough further cycles in which the budget lasts, a run with skips has lost
nothing. -/
def Recovers : Prop :=
  ∃ enough, ∀ further : List (CycleInput Batch), enough ≤ further.length →
    executor.LosesNothing engine (inputs ++ further.map unhurried)

theorem recovers_of_sparesAll (engine : QueryEngine State Batch) (executor : StreamExecutor State)
    (inputs : List (CycleInput Batch)) (spares : SparesAll engine executor inputs) :
    executor.Recovers engine inputs :=
  ⟨0, fun further _ => (spares.append further).losesNothing⟩

end StreamExecutor

def sumQuery : AggQuery Int64 Int64 (ScalarValue × Int64) where
  key row := [row.1]
  groupTypes := [.int64]
  aggSpecs := [sumSpec]
  maxGroups := 1000000

def wideRow : ScalarValue × Int64 := (.primitive (.int64 (some 5)), 1)

def totalsEngine : QueryEngine (fun _ => Groups Int64) (List (ScalarValue × Int64)) where
  register _ := none
  execute _ groups tables _ :=
    let rows := tables.flatMap fun table => table.2.flatten
    let totals := (IncrementalAggState.processBatch sumEngine sumQuery groups rows).1
    (totals, .ok [totals.entries.filterMap fun group => group.1.head?.bind fun key =>
      group.2.head?.map fun total => (key, total)])
  overLimit _ _ := none
  topK _ batches := batches

theorem totalsEngine_succeeds : totalsEngine.Succeeds :=
  ⟨fun _ => rfl, fun _ _ _ _ => ⟨_, rfl⟩, fun _ _ => rfl⟩

def totalsExecutor : StreamExecutor fun _ => Groups Int64 where
  queries := [⟨"trade_totals", ["trades"], false⟩, ⟨"order_totals", ["orders"], false⟩]
  states := fun _ => .empty
  topoOrder := []
  topoDirty := true
  skippedLastCycle := []
  ordered := fun clean => by cases clean

/-- A cycle with one row for each of the sources, whose budget ends after one query. -/
def hurriedInput (sources : List String) : CycleInput (List (ScalarValue × Int64)) where
  sourceBatches := sources.foldl (fun tables source => tables.insert source [[wideRow]]) .empty
  watermark := .minValue
  exhausted := fun _ => true

theorem live_totals (live : Live totalsExecutor.queries idx query) :
    query = ⟨"trade_totals", ["trades"], false⟩ ∨ query = ⟨"order_totals", ["orders"], false⟩ := by
  simpa [totalsExecutor] using mem_of_getElem? live.1

namespace StreamExecutor

theorem recovers_trades : SparesAll totalsEngine totalsExecutor [hurriedInput ["trades"]] ∧
    totalsExecutor.Recovers totalsEngine [hurriedInput ["trades"]] := by
  have spares : SparesAll totalsEngine totalsExecutor [hurriedInput ["trades"]] := by
    refine ⟨fun idx query live skipped => ?_, trivial⟩
    have isOrders : idx = 1 := by
      have known : skippedFrom totalsExecutor.queries (hurriedInput ["trades"]).exhausted 0
          totalsExecutor.cycleOrder = [1] := by decide
      exact mem_singleton.mp skipped
    subst isOrders
    cases Option.some.inj live.1
    refine ⟨?_, ?_, rfl, ?_⟩
    · decide
    · intro other otherQuery otherLive isRead
      rcases live_totals otherLive with rfl | rfl <;> exact absurd isRead (by decide)
    · rintro ⟨reader, readerQuery, readerLive, isRead⟩
      rcases live_totals readerLive with rfl | rfl <;> exact absurd isRead (by decide)
  exact ⟨spares, recovers_of_sparesAll totalsEngine totalsExecutor _ spares⟩

theorem delivered_of_empty
    (noBatches : ∀ input ∈ inputs, (input.sourceBatches.find? source).getD [] = []) :
    executor.delivered engine idx source inputs = [] := by
  induction inputs generalizing executor with
  | nil => rfl
  | cons input inputs ih =>
    rw [delivered, handed_of_empty (noBatches input mem_cons_self),
      ih (forall_mem_cons.mp noBatches).2]
    rfl

/-- The batch of a source is lost to a query that the budget skips. -/
theorem orders_not_recovers :
    ¬totalsExecutor.Recovers totalsEngine [hurriedInput ["trades", "orders"]] := by
  rintro ⟨enough, loses⟩
  have delivered := (loses (replicate enough (hurriedInput [])) (by simp)).delivered
    totalsEngine_succeeds 1 _ "orders" ⟨rfl, rfl⟩ (by decide)
  rw [singleton_append, StreamExecutor.delivered, delivered_of_empty] at delivered
  · have skipped : handed (hurriedInput ["trades", "orders"]) "orders" 1
        (totalsExecutor.outcome totalsEngine (hurriedInput ["trades", "orders"])).executed =
          [] := by
      decide
    exact absurd delivered (cons_ne_nil _ _).symm
  · intro input mem
    obtain ⟨quiet, among, rfl⟩ := mem_map.mp mem
    rw [(mem_replicate.mp among).2]
    rfl

end StreamExecutor

end LaminarDB.Executor
