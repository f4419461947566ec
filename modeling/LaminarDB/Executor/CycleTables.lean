import LaminarDB.Executor.Cycle

/-!
# The tables of a cycle

`execute_cycle` registers the batches of the sources and the results of the queries as
tables of the session context, and an EOWC query registers what it hands to its SQL under
the names of its sources. All are deregistered at the end, which an error does not reach.
-/

namespace LaminarDB.Executor

open Library State List

variable {State : Nat → Type} {Batch : Type}

/-- The tables of a query: the temporary ones it leaves when it fails, or those it has deregistered,
and then that of its results. -/
inductive Turn where
  | failed (temps : List String)
  | ended (temps : List String) (result : Option String)

structure TableEngine (State : Nat → Type) (Batch : Type) extends QueryEngine State Batch where
  /-- The temporary tables of an EOWC query, up to its end or its error. -/
  temps : (idx : Nat) → State idx → List (String × List Batch) → I64 → List String
  accepts : List Batch → Bool

variable (engine : TableEngine State Batch)

/-- `register_source_tables`: the tables that it registers, and whether it returns `Ok`. -/
def registerSourceTables (sourceSchemas : List String) (sourceBatches : Tables Batch) :
    List String × Bool :=
  let filled := sourceBatches.entries.filter fun source => !source.2.isEmpty
  let accepted := filled.takeWhile fun source => engine.accepts source.2
  if accepted.length < filled.length then (accepted.map Prod.fst, false)
  else (accepted.map Prod.fst ++
    sourceSchemas.filter fun name => (sourceBatches.find? name).isNone, true)

section

variable (queries : List StreamQuery) (input : CycleInput Batch)

def queryTurn (idx : Nat) (query : StreamQuery) (states : (idx : Nat) → State idx)
    (results : Tables Batch) : Turn :=
  let tables := tablesOf query input.sourceBatches results
  let temps := engine.temps idx (states idx) tables input.watermark
  match engine.execute idx (states idx) tables input.watermark with
  | (_, .error _) => .failed temps
  | (state, .ok batches) =>
    let batches := engine.topK idx batches
    .ended temps (if (engine.overLimit idx state).isNone && !batches.isEmpty &&
      engine.accepts batches then some query.name else none)

/-- The turns of the loop, and whether it reaches its end. -/
def turnsFrom : Nat → List Nat → ((idx : Nat) → State idx) → Tables Batch → List Turn × Bool
  | _, [], _, _ => ([], true)
  | position, idx :: rest, states, results =>
    match queries[idx]? with
    | none => turnsFrom (position + 1) rest states results
    | some query =>
      if query.removed then turnsFrom (position + 1) rest states results
      else if 0 < position && input.exhausted position then ([], true)
      else
        let turn := queryTurn engine input idx query states results
        match executeQuery engine.toQueryEngine queries input idx query states results with
        | (_, .error _) => ([turn], false)
        | (states, .ok results) =>
          let (turns, returned) := turnsFrom (position + 1) rest states results
          (turn :: turns, returned)

end

/-- What a query is executed with. -/
structure Call (State : Nat → Type) (Batch : Type) where
  idx : Nat
  query : StreamQuery
  state : State idx
  tables : List (String × List Batch)

section

variable (queries : List StreamQuery) (input : CycleInput Batch)

/-- The executions of the loop. -/
def callsFrom :
    Nat → List Nat → ((idx : Nat) → State idx) → Tables Batch → List (Call State Batch)
  | _, [], _, _ => []
  | position, idx :: rest, states, results =>
    match queries[idx]? with
    | none => callsFrom (position + 1) rest states results
    | some query =>
      if query.removed then callsFrom (position + 1) rest states results
      else if 0 < position && input.exhausted position then []
      else
        ⟨idx, query, states idx, tablesOf query input.sourceBatches results⟩ ::
          match executeQuery engine.toQueryEngine queries input idx query states results with
          | (_, .error _) => []
          | (states, .ok results) => callsFrom (position + 1) rest states results

/-- If the query fails, it reads another one and leaves only tables with the names of sources that
are registered. Its state is below the limit. -/
structure Call.Tidy (sources : List String) (call : Call State Batch) : Prop where
  failing : ∀ error,
    (engine.execute call.idx call.state call.tables input.watermark).2 = .error error →
      dependsOnStream queries call.query ∧
        ∀ name ∈ engine.temps call.idx call.state call.tables input.watermark, name ∈ sources
  limited : ∀ batches,
    (engine.execute call.idx call.state call.tables input.watermark).2 = .ok batches →
      engine.overLimit call.idx
        (engine.execute call.idx call.state call.tables input.watermark).1 = none

end

/-- A cycle: the executor before it, whether all queries are compiled, and its inputs. -/
structure Cycle (State : Nat → Type) (Batch : Type) where
  executor : StreamExecutor State
  allQueriesCompiled : Bool
  sourceSchemas : List String
  input : CycleInput Batch

/-- The sources that a cycle registers, its turns, and whether it reaches its end. -/
structure TableCycle where
  sources : List String
  turns : List Turn
  returned : Bool

namespace Cycle

variable (cycle : Cycle State Batch)

def registers : List String × Bool :=
  if cycle.allQueriesCompiled then ([], true)
  else registerSourceTables engine cycle.sourceSchemas cycle.input.sourceBatches

def execute : TableCycle :=
  if (cycle.registers engine).2 then
    let turns := turnsFrom engine cycle.executor.queries cycle.input 0 cycle.executor.cycleOrder
      cycle.executor.states .empty
    ⟨(cycle.registers engine).1, turns.1, turns.2⟩
  else ⟨(cycle.registers engine).1, [], false⟩

/-- The sources can be registered, and every execution of the cycle is tidy. -/
structure Tidy : Prop where
  registered : (cycle.registers engine).2 = true
  calls : ∀ call ∈ callsFrom engine cycle.executor.queries cycle.input 0
      cycle.executor.cycleOrder cycle.executor.states .empty,
    call.Tidy engine cycle.executor.queries cycle.input (cycle.registers engine).1

end Cycle

namespace Turn

def apply (tables : Finset String) : Turn → Finset String
  | failed temps => tables ∪ temps.toFinset
  | ended temps result => (tables \ temps.toFinset) ∪ result.toList.toFinset

def result? : Turn → Option String
  | failed _ => none
  | ended _ result => result

/-- A failing query leaves tables with the names of the sources only. -/
def Within (sources : List String) : Turn → Prop
  | failed temps => ∀ name ∈ temps, name ∈ sources
  | ended _ _ => True

variable {name : String} {sources : List String} {tables : Finset String}

theorem mem_apply {turn : Turn} (within : turn.Within sources) (isLeft : name ∈ turn.apply tables) :
    name ∈ tables ∨ name ∈ sources ∨ turn.result? = some name := by
  cases turn with
  | failed temps =>
    rcases Finset.mem_union.mp isLeft with before | isTemp
    · exact .inl before
    · exact .inr (.inl (within name (mem_toFinset.mp isTemp)))
  | ended temps result =>
    rcases Finset.mem_union.mp isLeft with before | isResult
    · exact .inl (Finset.mem_sdiff.mp before).1
    · exact .inr (.inr (Option.mem_toList.mp (mem_toFinset.mp isResult)))

theorem mem_foldl_apply {turns : List Turn} (within : ∀ turn ∈ turns, turn.Within sources)
    (isLeft : name ∈ turns.foldl apply tables) :
    name ∈ tables ∨ name ∈ sources ∨ name ∈ turns.filterMap result? := by
  induction turns generalizing tables with
  | nil => exact .inl isLeft
  | cons turn turns ih =>
    obtain ⟨first, others⟩ := forall_mem_cons.mp within
    rcases ih others isLeft with before | isSource | isResult
    · rcases mem_apply first before with before | isSource | isResult
      · exact .inl before
      · exact .inr (.inl isSource)
      · exact .inr (.inr (mem_filterMap.mpr ⟨turn, mem_cons_self, isResult⟩))
    · exact .inr (.inl isSource)
    · obtain ⟨later, isLater, isResult⟩ := mem_filterMap.mp isResult
      exact .inr (.inr (mem_filterMap.mpr ⟨later, mem_cons_of_mem _ isLater, isResult⟩))

end Turn

/-- The tables of cycles in the session context, and `registered_sources`. -/
structure Session where
  tables : Finset String
  registered : List String

/-- The session after `execute_cycle`. An error reaches neither of the two clean-ups. -/
def Session.after (session : Session) (cycle : Cycle State Batch) : Session :=
  let executed := cycle.execute engine
  let left := executed.turns.foldl Turn.apply (session.tables ∪ executed.sources.toFinset)
  let registered := session.registered ++ executed.sources
  let results := (executed.turns.filterMap Turn.result?).toFinset
  if !executed.returned then ⟨left, registered⟩
  else if cycle.allQueriesCompiled then ⟨left \ results, registered⟩
  else ⟨(left \ registered.toFinset) \ results, []⟩

section

variable {engine} {queries : List StreamQuery} {input : CycleInput Batch} {sources : List String}

theorem queryTurn_within {idx : Nat} {query : StreamQuery} {states : (idx : Nat) → State idx}
    {results : Tables Batch}
    (tidy : Call.Tidy engine queries input sources
      ⟨idx, query, states idx, tablesOf query input.sourceBatches results⟩) :
    (queryTurn engine input idx query states results).Within sources := by
  rw [queryTurn]
  split
  · rename_i state error isError
    exact (tidy.failing error (congrArg Prod.snd isError)).2
  · trivial

theorem executeQuery_of_tidy {idx : Nat} {query : StreamQuery} {states : (idx : Nat) → State idx}
    {results : Tables Batch}
    (tidy : Call.Tidy engine queries input sources
      ⟨idx, query, states idx, tablesOf query input.sourceBatches results⟩) :
    ∃ states' results', executeQuery engine.toQueryEngine queries input idx query states results =
      (states', .ok results') := by
  simp only [executeQuery]
  cases isResult : (engine.execute idx (states idx)
      (tablesOf query input.sourceBatches results) input.watermark).2 with
  | error error =>
    have depends := (tidy.failing error isResult).1
    simp only [if_pos depends]
    exact ⟨_, _, rfl⟩
  | ok batches =>
    have below := tidy.limited batches isResult
    simp only at below
    simp only [below]
    exact ⟨_, _, rfl⟩

/-- The loop reaches its end, and its failing queries leave tables of sources only. -/
theorem turnsFrom_within {order : List Nat} {position : Nat} {states : (idx : Nat) → State idx}
    {results : Tables Batch}
    (tidy : ∀ call ∈ callsFrom engine queries input position order states results,
      call.Tidy engine queries input sources) :
    (turnsFrom engine queries input position order states results).2 = true ∧
      ∀ turn ∈ (turnsFrom engine queries input position order states results).1,
        turn.Within sources := by
  induction order generalizing position states results with
  | nil => exact ⟨rfl, forall_mem_nil _⟩
  | cons idx rest ih =>
    simp only [callsFrom, turnsFrom] at tidy ⊢
    cases isQuery : queries[idx]? with
    | none =>
      simp only [isQuery] at tidy ⊢
      exact ih tidy
    | some query =>
      simp only [isQuery] at tidy ⊢
      by_cases removed : query.removed = true
      · simp only [if_pos removed] at tidy ⊢
        exact ih tidy
      · simp only [if_neg removed] at tidy ⊢
        by_cases exhausted : (decide (0 < position) && input.exhausted position) = true
        · simp only [if_pos exhausted]
          exact ⟨trivial, forall_mem_nil _⟩
        · simp only [if_neg exhausted] at tidy ⊢
          obtain ⟨first, others⟩ := forall_mem_cons.mp tidy
          obtain ⟨states', results', isOk⟩ := executeQuery_of_tidy first
          simp only [isOk] at others ⊢
          obtain ⟨returned, within⟩ := ih others
          exact ⟨returned, forall_mem_cons.mpr ⟨queryTurn_within first, within⟩⟩

theorem after_tidy {session : Session} {cycle : Cycle State Batch} (clean : session.tables = ∅)
    (tidy : cycle.Tidy engine) : (session.after engine cycle).tables = ∅ := by
  obtain ⟨returned, within⟩ := turnsFrom_within tidy.calls
  have isLeft : ∀ name ∈ (cycle.execute engine).turns.foldl Turn.apply
      (session.tables ∪ (cycle.execute engine).sources.toFinset),
      name ∈ (cycle.registers engine).1 ∨
        name ∈ (cycle.execute engine).turns.filterMap Turn.result? := by
    intro name isLeft
    rw [Cycle.execute, if_pos tidy.registered] at isLeft ⊢
    rw [clean, Finset.empty_union] at isLeft
    rcases Turn.mem_foldl_apply within isLeft with isSource | isSource | isResult
    · exact .inl (mem_toFinset.mp isSource)
    · exact .inl isSource
    · exact .inr isResult
  have isReturned : (cycle.execute engine).returned = true := by
    rw [Cycle.execute, if_pos tidy.registered]
    exact returned
  have areSources : (cycle.execute engine).sources = (cycle.registers engine).1 := by
    rw [Cycle.execute, if_pos tidy.registered]
  apply Finset.eq_empty_of_forall_notMem
  intro name
  rw [Session.after, isReturned]
  cases compiled : cycle.allQueriesCompiled with
  | true =>
    have none : (cycle.registers engine).1 = [] := by rw [Cycle.registers, if_pos compiled]
    simp only [Bool.not_true, Bool.false_eq_true, if_false, if_true, Finset.mem_sdiff, mem_toFinset]
    intro ⟨left, notResult⟩
    rcases isLeft name left with isSource | isResult
    · rw [none] at isSource
      cases isSource
    · exact notResult isResult
  | false =>
    simp only [Bool.not_true, Bool.false_eq_true, if_false, Finset.mem_sdiff, mem_toFinset,
      mem_append]
    intro ⟨⟨left, notRegistered⟩, notResult⟩
    rcases isLeft name left with isSource | isResult
    · exact notRegistered (.inr (areSources ▸ isSource))
    · exact notResult isResult

end

/-- No table of a cycle outlives it in any run of cycles that register their sources and whose
failing queries read another one and leave only tables of sources. Between cycles the executor
may change. -/
theorem tables_cycles (cycles : List (Cycle State Batch))
    (tidy : ∀ cycle ∈ cycles, cycle.Tidy engine) :
    (cycles.foldl (Session.after engine) ⟨∅, []⟩).tables = ∅ := by
  have general : ∀ session : Session, session.tables = ∅ →
      (cycles.foldl (Session.after engine) session).tables = ∅ := by
    induction cycles with
    | nil => exact fun _ clean => clean
    | cons cycle cycles ih =>
      obtain ⟨first, others⟩ := forall_mem_cons.mp tidy
      exact fun session clean => ih others _ (after_tidy clean first)
  exact general _ rfl

/-- The second query reads the first one. It fails and leaves a table. -/
def warmingEngine : TableEngine (fun _ => Unit) Nat where
  register _ := none
  execute idx _ _ _ := ((), if idx = 0 then .ok [7] else .error (.pipeline "not ready"))
  overLimit _ _ := none
  topK _ := id
  temps _ _ _ _ := ["trades"]
  accepts _ := true

def totals : StreamExecutor fun _ => Unit :=
  ⟨[⟨"alerts", ["trades"], false⟩, ⟨"totals", ["alerts", "trades"], false⟩], fun _ => (), [0, 1],
    false, [], fun _ => rfl⟩

theorem tables_cycles_warming :
    ((List.replicate 2 (Cycle.mk totals false ["trades"]
        ⟨.insert .empty "trades" [7], .clamp 0, fun _ => false⟩)).foldl
      (Session.after warmingEngine) ⟨∅, []⟩).tables = ∅ := by
  refine tables_cycles warmingEngine _ fun cycle isCycle => ?_
  rw [eq_of_mem_replicate isCycle]
  refine ⟨rfl, ?_⟩
  intro call isCall
  rcases mem_cons.mp isCall with rfl | isSecond
  · exact ⟨nofun, fun _ _ => rfl⟩
  · rw [mem_singleton.mp isSecond]
    exact ⟨fun _ _ => ⟨by decide, by decide⟩, fun _ _ => rfl⟩

def failingEngine : TableEngine (fun _ => Unit) Nat where
  register _ := none
  execute _ _ _ _ := ((), .error (.pipeline "no such column"))
  overLimit _ _ := none
  topK _ := id
  temps _ _ _ _ := []
  accepts _ := true

def alerts : StreamExecutor fun _ => Unit :=
  ⟨[⟨"alerts", ["trades"], false⟩], fun _ => (), [0], false, [], fun _ => rfl⟩

/-- The table of the source is still there after the error. -/
theorem tables_failing_cycle :
    (Session.after failingEngine ⟨∅, []⟩ ⟨alerts, false, [],
      ⟨.insert .empty "trades" [7], .clamp 0, fun _ => false⟩⟩).tables = {"trades"} := by
  decide

end LaminarDB.Executor
